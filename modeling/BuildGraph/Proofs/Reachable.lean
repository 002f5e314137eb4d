import BuildGraph.Proofs.ByteOrder
import BuildGraph.Proofs.Pass

/-!
# Reachable projects

A project is reachable if some operations lead to it from a fresh one, in any order and whether they
succeed or fail. Tasks of every kind and name may be registered, passes need not have anything in
common, and test runs may be set up by hand; a task cannot be renamed or taken away. What is shown to
hold of every reachable project is what each operation preserves.
-/

namespace BuildGraph

namespace Project

/-! ## Operations -/

/-- An operation on a project. -/
inductive Operation where
  | addSuite (name : String) (file sourceSet : Option String)
  | apply (c : Capability)
  | enableCoverage (reportsDir : String)
  | configureReports (convention : ReportConvention)
  | register (t : Task)
  | configure (pass : CoveragePass)
  | synthesize (pass : CoveragePass) (suite : String)
  /-- Set up the test run of a task by hand; its suite stays. -/
  | editExecution (task : String) (excludedLoaders : Option (List String))
    (properties : SortedMap String String)
  /-- Set the coverage settings by hand, if coverage is enabled. -/
  | editCoverage (extension : CoverageExtension)
  | relocate (path buildDir : String)
  | requestUberJar (uberJar : Bool)

/-- A project after an attempt. A failure leaves it as it was. -/
def attempted (p : Project) : Except ProjectFault Project → Project
  | .ok q => q
  | .error _ => p

/-- An attempt keeps what it keeps when it succeeds. -/
theorem of_attempted {P : Project → Prop} {p : Project} {r : Except ProjectFault Project} (hp : P p)
    (h : ∀ q, r = .ok q → P q) : P (p.attempted r) := by
  cases r with
  | ok q => exact h q rfl
  | error fault => exact hp

/-- An attempt to process one suite is a run over one suite. -/
theorem attempted_synthesize (pass : CoveragePass) (p : Project) (suite : String) :
    p.attempted ((pass.synthesize p suite).map (·.1)) = (pass.synthesizeAll [suite] p).1 := by
  cases h : pass.synthesize p suite with
  | error fault =>
    rw [CoveragePass.synthesizeAll_cons_error h]
    rfl
  | ok r =>
    obtain ⟨q, created⟩ := r
    rw [CoveragePass.synthesizeAll_cons_ok h]
    rfl

/-- A project whose task of a name has another test run. -/
def editExecution (p : Project) (task : String) (f : TestExecution → TestExecution) : Project :=
  { p with tasks := p.tasks.modify task (Task.mapExecution f) }

/-- A project after an operation. -/
def Operation.run (p : Project) : Operation → Project
  | .addSuite name file sourceSet => p.attempted (p.addSuite name file sourceSet)
  | .apply c => p.apply c
  | .enableCoverage reportsDir => p.attempted (p.enableCoverage reportsDir)
  | .configureReports convention => p.configureReports convention
  | .register t => p.attempted (p.register t)
  | .configure pass => (pass.configure p).1
  | .synthesize pass suite => p.attempted ((pass.synthesize p suite).map (·.1))
  | .editExecution task excludedLoaders properties =>
    p.editExecution task fun e => { e with excludedLoaders, properties }
  | .editCoverage extension => { p with coverage := p.coverage.map fun _ => extension }
  | .relocate path buildDir => { p with path, buildDir }
  | .requestUberJar uberJar => { p with uberJar }

/-- Whether operations lead from a fresh project to this one. -/
inductive Reachable : Project → Prop where
  | fresh (path buildDir : String) : Reachable (Project.fresh path buildDir)
  | run {p : Project} (operation : Operation) (h : Reachable p) : Reachable (operation.run p)

/-! ## Projects that are well formed -/

/-- What every operation preserves. -/
structure WellFormed (p : Project) : Prop where
  suite_name : ∀ {name s}, p.suites.find? name = some s → s.name = name
  default_data : ∃ s data, p.suites.find? defaultSuite = some s ∧ s.executionData = some data
  main : p.sourceSets.contains mainSourceSet
  classes : p.tasks.contains classesTask
  generated : ∀ t, p.has (.toolchain t) → p.tasks.contains t.generatedSourcesTask

variable {p q : Project}

/-- A project that continues one in shape is in shape. -/
theorem Continues.wellFormed (h : p.Continues q) (hp : p.WellFormed) : q.WellFormed where
  suite_name := by rw [h.suites]; exact hp.suite_name
  default_data := by rw [h.suites]; exact hp.default_data
  main := by rw [h.sourceSets]; exact hp.main
  classes := h.contains hp.classes
  generated t ht := h.contains (hp.generated t (by rwa [h.has_toolchain] at ht))

/-- A fresh project is in shape: it has its default suite with data, and `classes`. -/
theorem wellFormed_fresh (path buildDir : String) : (fresh path buildDir).WellFormed where
  suite_name {name s} h := by
    rw [fresh, SortedMap.find?_insert] at h
    split at h
    · rename_i e
      rw [← Option.some.inj h, e]
    · cases h
  default_data := ⟨_, _, SortedMap.find?_insert_self .., rfl⟩
  main := by
    change (SortedSet.ofList [mainSourceSet, defaultTestTask]).contains mainSourceSet = true
    decide
  classes := by
    rw [TaskGraph.contains_iff_mem_names]
    exact List.mem_cons_self ..
  generated t h := by cases h

/-- Registering a task changes no earlier one. -/
theorem continues_register {t : Task} (h : p.register t = .ok q) : p.Continues q :=
  .of_grows (register_ok h)

/-- A suite that is declared is a new one, and its test task comes behind the other tasks. -/
theorem addSuite_ok {name : String} {file sourceSet : Option String}
    (h : p.addSuite name file sourceSet = .ok q) :
    p.suites.contains name = false ∧ p.tasks.contains name = false ∧
      ∃ m suite, p.Grows m [p.conform { name, action := .test { suite := name } }] ∧
        (suite.name = name ∧ suite.sourceSet = sourceSet.getD name) ∧
        q = { m with
          sourceSets := m.sourceSets.add (sourceSet.getD name)
          suites := m.suites.insert name suite } := by
  unfold addSuite at h
  split at h
  · cases h
  · rename_i hn
    split at h
    · cases h
    · rename_i m hm
      have hfree : p.tasks.contains name = false := by
        by_contra hc
        rw [register_of_taken (by simpa using hc)] at hm
        cases hm
      exact ⟨by simpa using hn, hfree, m, _, register_ok hm, ⟨rfl, rfl⟩, (Except.ok.inj h).symm⟩

/-- A suite is kept under its own name and brings its source set, so the project stays in shape. -/
theorem wellFormed_addSuite {name : String} {file sourceSet : Option String} (hp : p.WellFormed)
    (h : p.addSuite name file sourceSet = .ok q) : q.WellFormed := by
  obtain ⟨hn, _, m, suite, hg, ⟨hs, _⟩, rfl⟩ := addSuite_ok h
  have hw := (Continues.of_grows hg).wellFormed hp
  have hne : defaultSuite ≠ name := by
    rintro rfl
    obtain ⟨s, _, hs, _⟩ := hp.default_data
    simp [SortedMap.contains, hs] at hn
  refine ⟨fun {other s} h => ?_, ?_, ?_, hw.classes, hw.generated⟩
  · rw [SortedMap.find?_insert] at h
    split at h
    · rename_i e
      rw [← Option.some.inj h, e, hs]
    · exact hw.suite_name h
  · rw [SortedMap.find?_insert_of_ne _ hne]
    exact hw.default_data
  · rw [SortedSet.contains_add, hw.main, Bool.or_true]

/-- A capability brings at most the task that compiles a toolchain's generated sources. -/
theorem tasks_apply (p : Project) (c : Capability) :
    ∃ ts, (p.apply c).tasks.tasks = p.tasks.tasks ++ ts ∧
      (∀ t ∈ ts, t.action = .compile ∧ ∃ k : Toolchain, t.name = k.generatedSourcesTask) ∧
      ∀ t, c = .toolchain t → (p.apply c).tasks.contains t.generatedSourcesTask := by
  cases c with
  | toolchain t =>
    have ht : (p.apply (.toolchain t)).tasks.tasks = _ := TaskGraph.tasks_ensure p.tasks
      { name := t.generatedSourcesTask, action := .compile }
    cases hc : p.tasks.contains t.generatedSourcesTask with
    | true =>
      rw [if_pos hc] at ht
      refine ⟨[], ht.trans (List.append_nil _).symm, by simp, ?_⟩
      intro u hu
      obtain rfl := Capability.toolchain.inj hu
      rwa [TaskGraph.contains_iff_mem_names, TaskGraph.names, ht, ← TaskGraph.names,
        ← TaskGraph.contains_iff_mem_names]
    | false =>
      rw [if_neg (by simp [hc])] at ht
      refine ⟨_, ht, ?_, ?_⟩
      · intro u hu
        obtain rfl := List.mem_singleton.mp hu
        exact ⟨rfl, t, rfl⟩
      · intro u hu
        obtain rfl := Capability.toolchain.inj hu
        rw [TaskGraph.contains_iff_mem_names, TaskGraph.names, ht, List.map_append]
        exact List.mem_append_right _ (List.mem_singleton_self _)
  | _ => exact ⟨[], (List.append_nil _).symm, by simp, fun t ht => by cases ht⟩

/-- Applying a capability removes no task. -/
theorem contains_apply {name : String} (c : Capability) (h : p.tasks.contains name) :
    (p.apply c).tasks.contains name := by
  obtain ⟨ts, ht, _⟩ := p.tasks_apply c
  rw [TaskGraph.contains_iff_mem_names, TaskGraph.names, ht, List.map_append]
  exact List.mem_append_left _ (TaskGraph.contains_iff_mem_names.mp h)

/-- Applying a capability grants that one and takes none away. -/
theorem has_apply (p : Project) (c d : Capability) :
    (p.apply c).has d = (decide (d = c) || p.has d) := p.has_add d c

/-- A toolchain comes with its task for generated sources, so the project stays in shape. -/
theorem wellFormed_apply (c : Capability) (hp : p.WellFormed) : (p.apply c).WellFormed := by
  refine ⟨hp.suite_name, hp.default_data, hp.main, contains_apply c hp.classes, fun t ht => ?_⟩
  rw [has_apply, Bool.or_eq_true, decide_eq_true_iff] at ht
  rcases ht with rfl | ht
  · obtain ⟨_, _, _, hc⟩ := p.tasks_apply (.toolchain t)
    exact hc t rfl
  · exact contains_apply c (hp.generated t ht)

/-- Changing a test run touches no coverage task. -/
theorem continues_editExecution (p : Project) (task : String) (f : TestExecution → TestExecution) :
    p.Continues (p.editExecution task f) := by
  rw [editExecution, TaskGraph.modify_eq_mapTasks]
  refine .of_mapTasks p fun t => ?_
  split
  · cases h : t.action <;> simp [Task.mapExecution, Task.outline?, h]
  · rfl

/-- Each operation leaves a project well formed. -/
theorem wellFormed_run (operation : Operation) (hp : p.WellFormed) : (operation.run p).WellFormed := by
  cases operation with
  | addSuite name file sourceSet => exact of_attempted (P := WellFormed) hp fun q h => wellFormed_addSuite hp h
  | apply c => exact wellFormed_apply c hp
  | enableCoverage reportsDir =>
    exact of_attempted (P := WellFormed) hp fun q h => (continues_enableCoverage h).wellFormed hp
  | configureReports convention =>
    have hc := Continues.of_mapTasks p (f := (·.followConvention convention))
      (Task.outline?_followConvention · convention)
    have hw := hc.wellFormed hp
    exact ⟨hw.suite_name, hw.default_data, hw.main, hw.classes, hw.generated⟩
  | register t => exact of_attempted (P := WellFormed) hp fun q h => (continues_register h).wellFormed hp
  | configure pass => exact (pass.continues_configure p).wellFormed hp
  | synthesize pass suite =>
    rw [Operation.run, attempted_synthesize]
    exact (pass.continues_synthesizeAll [suite] p).wellFormed hp
  | editExecution task excludedLoaders properties =>
    exact (p.continues_editExecution task _).wellFormed hp
  | editCoverage extension =>
    exact ⟨hp.suite_name, hp.default_data, hp.main, hp.classes, hp.generated⟩
  | relocate path buildDir =>
    exact ⟨hp.suite_name, hp.default_data, hp.main, hp.classes, hp.generated⟩
  | requestUberJar uberJar =>
    exact ⟨hp.suite_name, hp.default_data, hp.main, hp.classes, hp.generated⟩

/-- A reachable project is well formed. -/
theorem Reachable.wellFormed (h : p.Reachable) : p.WellFormed := by
  induction h with
  | fresh path buildDir => exact wellFormed_fresh path buildDir
  | run operation _ ih => exact wellFormed_run operation ih

/-! ## Suites and toolchains of well-formed projects -/

/-- The suites in order are the names under which they were declared, but the default one. -/
theorem WellFormed.derivedSuites_eq (h : p.WellFormed) :
    p.derivedSuites = p.suites.keys.filter (· ≠ defaultSuite) := by
  have hn : p.suites.values.map (·.name) = p.suites.keys := by
    rw [SortedMap.values, SortedMap.keys, List.map_map]
    refine List.map_congr_left fun e he => ?_
    exact h.suite_name (SortedMap.mem_entries_iff.mp he)
  rw [derivedSuites, hn]

/-- All suites but the default one are to be processed. -/
theorem WellFormed.mem_derivedSuites (h : p.WellFormed) {suite : String} :
    suite ∈ p.derivedSuites ↔ p.suites.contains suite ∧ suite ≠ defaultSuite := by
  rw [h.derivedSuites_eq, List.mem_filter, SortedMap.mem_keys_iff, decide_eq_true_iff]

/-- Suites are processed in the order of the bytes of their names. -/
theorem WellFormed.derivedSuites_bytesBefore (h : p.WellFormed) :
    p.derivedSuites.Pairwise Text.BytesBefore := by
  rw [h.derivedSuites_eq]
  exact p.suites.keys_bytesBefore.filter _

/-- Nothing that a toolchain needs is missing. -/
theorem WellFormed.adjustAll (h : p.WellFormed) :
    Toolchain.adjustAll p.toolchains p = (Toolchain.adjusted p.toolchains p, .ok ()) := by
  refine Toolchain.adjustAll_of_missing?_eq_none fun t ht => ?_
  rw [Toolchain.missing?_eq_none_iff]
  exact ⟨h.generated t (Toolchain.mem_toolchains.mp ht), h.classes⟩

/-- A reachable project with one suite next to the default one. -/
def sample : Project :=
  Operation.run (fresh ":model" "build") (.addSuite "slow" (some "build/slow.exec") none)

/-- The sample is one operation away from a fresh project. -/
theorem reachable_sample : sample.Reachable := .run _ (.fresh ":model" "build")

end Project

/-- A pass that takes all projects in. -/
def CoveragePass.sample : CoveragePass where
  policy := ⟨[⟨[.anyText]⟩], []⟩
  reportsDir := "reports"
  toolVersionKey := "jacoco"
  catalog := ({} : Catalog).withVersion "jacoco" "0.8.8"

end BuildGraph
