import BuildGraph.Proofs.Reachable

/-!
# Tasks are only added

Whatever is done to a project, its tasks keep their order, their names and their purposes, and new tasks
come behind them; an operation that fails is no exception. The test task that a suite is declared with
is therefore there for good, and so is the suite's source set. Other parts of a task, such as the loaders
that a test run excludes and the formats that a report requires, may change.
-/

namespace BuildGraph

/-! ## Purposes -/

/-- What a task is there for: its kind, and the suite that it runs or the data that it evaluates. -/
inductive Purpose where
  | compile
  | test (suite : String)
  | report (inputs : CoverageInputs)
  | verification (inputs : CoverageInputs)
deriving DecidableEq, Repr

namespace Task

def purpose (t : Task) : Purpose :=
  match t.action with
  | .compile => .compile
  | .test e => .test e.suite
  | .report r => .report r.inputs
  | .verification inputs => .verification inputs

/-- What stays of a task: its name and its purpose. -/
def entry (t : Task) : String × Purpose := (t.name, t.purpose)

variable {t : Task}

/-- The purpose of a task tells whether it runs tests, and of which suite. -/
theorem purpose_eq_test_iff {suite : String} :
    t.purpose = .test suite ↔ ∃ e, t.action = .test e ∧ e.suite = suite := by
  cases h : t.action <;> simp [purpose, h]

/-- A convention changes the purpose of no task. -/
theorem purpose_followConvention (t : Task) (c : ReportConvention) :
    (t.followConvention c).purpose = t.purpose := by
  cases h : t.action <;> simp [followConvention, purpose, h, Report.inputs_follow]

/-- A change of test runs that leaves their suites alone leaves purposes alone. -/
theorem purpose_mapExecution (f : TestExecution → TestExecution) (hf : ∀ e, (f e).suite = e.suite)
    (t : Task) : (mapExecution f t).purpose = t.purpose := by
  cases h : t.action <;> simp [mapExecution, purpose, h, hf]

end Task

/-- Adjusting to toolchains changes the purpose of no task. -/
theorem Toolchain.purpose_adjustTask (ts : List Toolchain) (t : Task) :
    (adjustTask ts t).purpose = t.purpose := by
  unfold adjustTask
  rw [Task.purpose_mapExecution (adjustExecutions ts) fun _ => rfl]
  split <;> rfl

/-- The names and purposes of tasks in order of registration. -/
def TaskGraph.entries (g : TaskGraph) : List (String × Purpose) := g.tasks.map (·.entry)

/-- Changes that leave purposes alone leave the list of names and purposes alone. -/
theorem TaskGraph.entries_mapTasks (g : TaskGraph) {f : Task → Task}
    (hf : ∀ t, (f t).purpose = t.purpose) : (g.mapTasks f).entries = g.entries := by
  rw [entries, mapTasks, List.map_map]
  exact List.map_congr_left fun t _ => Prod.ext rfl (hf t)

/-! ## Adding tasks -/

namespace Project

variable {p q r : Project}

/-- Whether a project has the tasks of another one, and maybe more behind them. -/
def Appends (p q : Project) : Prop := p.tasks.entries <+: q.tasks.entries

namespace Appends

theorem refl (p : Project) : p.Appends p := List.prefix_refl _

theorem trans (h : p.Appends q) (h' : q.Appends r) : p.Appends r := List.IsPrefix.trans h h'

/-- Tasks put behind the earlier ones come behind them in the history. -/
theorem of_tasks {ts : List Task} (h : q.tasks.tasks = p.tasks.tasks ++ ts) : p.Appends q := by
  rw [Appends, TaskGraph.entries, TaskGraph.entries, h, List.map_append]
  exact List.prefix_append _ _

theorem of_grows {ts : List Task} (h : p.Grows q ts) : p.Appends q := of_tasks h.tasks

/-- Changes that leave purposes alone do not rewrite the history. -/
theorem of_mapTasks {f : Task → Task} (hf : ∀ t, (f t).purpose = t.purpose)
    (h : q.tasks = p.tasks.mapTasks f) : p.Appends q := by
  have he : q.tasks.entries = p.tasks.entries := by rw [h, TaskGraph.entries_mapTasks _ hf]
  exact ⟨[], (List.append_nil _).trans he.symm⟩

/-- A task is found under its name for good, and for the same purpose. -/
theorem task? (h : p.Appends q) {name : String} {t : Task} (ht : p.task? name = some t) :
    ∃ u, q.task? name = some u ∧ u.purpose = t.purpose := by
  obtain ⟨hm, hn⟩ := TaskGraph.get?_eq_some_iff.mp ht
  have hentry : t.entry ∈ q.tasks.entries := h.subset (List.mem_map_of_mem hm)
  obtain ⟨u, hu, he⟩ := List.mem_map.mp hentry
  obtain ⟨hname, hpurpose⟩ := Prod.mk.inj he
  exact ⟨u, TaskGraph.get?_eq_some_iff.mpr ⟨hu, hname.trans hn⟩, hpurpose⟩

end Appends

/-- Enabling coverage puts tasks behind the others, if any. -/
theorem appends_enableCoverage {reportsDir : String} (h : p.enableCoverage reportsDir = .ok q) :
    p.Appends q := by
  obtain ⟨m, hg, rfl⟩ := enableCoverage_ok h
  split
  · exact .of_grows hg
  · exact .of_tasks hg.tasks

/-- A convention changes what reports render, which is no part of the history. -/
theorem appends_configureReports (p : Project) (convention : ReportConvention) :
    p.Appends (p.configureReports convention) :=
  .of_mapTasks (Task.purpose_followConvention · convention) rfl

/-- A capability registers at most the task of its toolchain. -/
theorem appends_apply (p : Project) (c : Capability) : p.Appends (p.apply c) := by
  obtain ⟨ts, ht, _⟩ := p.tasks_apply c
  exact .of_tasks ht

end Project

namespace CoveragePass

open Project

variable {pass : CoveragePass} {p q a b : Project}

/-- Activation puts tasks behind the others, if any. -/
theorem appends_activate (h : pass.activate p = .ok a) : p.Appends a := by
  obtain ⟨version, m, _, hm, rfl⟩ := activate_ok h
  have hm := appends_enableCoverage hm
  exact hm.trans ((m.appends_apply .coverageAggregation).trans (appends_configureReports _ _))

/-- Adjusting to toolchains registers nothing. -/
theorem appends_adjustAll (ts : List Toolchain) (p : Project) :
    p.Appends (Toolchain.adjustAll ts p).1 := by
  rw [Toolchain.adjustAll_eq]
  exact .of_mapTasks (Toolchain.purpose_adjustTask _) rfl

/-- The tasks of suites come behind all others, even if a later suite fails. -/
theorem appends_synthesizeAll (pass : CoveragePass) (suites : List String) (p : Project) :
    p.Appends (pass.synthesizeAll suites p).1 := by
  obtain ⟨ts, hg, _⟩ := pass.synthesizeAll_grows suites p
  exact .of_grows hg

/-- A pass only adds tasks, however far it gets. -/
theorem appends_configure (pass : CoveragePass) (p : Project) : p.Appends (pass.configure p).1 :=
  of_configure (P := p.Appends) (.refl p) appends_activate
    (fun ts h => h.trans (appends_adjustAll ts _))
    (fun suites h => h.trans (pass.appends_synthesizeAll suites _))

end CoveragePass

namespace Project

variable {p q : Project}

/-- Every operation only adds tasks. -/
theorem appends_run (operation : Operation) (p : Project) : p.Appends (operation.run p) := by
  cases operation with
  | addSuite name file sourceSet =>
    refine of_attempted (P := p.Appends) (.refl p) fun q h => ?_
    obtain ⟨_, _, m, suite, hg, _, rfl⟩ := addSuite_ok h
    exact .of_tasks hg.tasks
  | apply c => exact p.appends_apply c
  | enableCoverage reportsDir => exact of_attempted (P := p.Appends) (.refl p) fun q h => appends_enableCoverage h
  | configureReports convention => exact p.appends_configureReports convention
  | register t => exact of_attempted (P := p.Appends) (.refl p) fun q h => .of_grows (register_ok h)
  | configure pass => exact pass.appends_configure p
  | synthesize pass suite =>
    rw [Operation.run, attempted_synthesize]
    exact pass.appends_synthesizeAll [suite] p
  | editExecution task excludedLoaders properties =>
    refine .of_mapTasks ?_ (TaskGraph.modify_eq_mapTasks ..)
    intro t
    split
    · exact Task.purpose_mapExecution _ (by intro e; rfl) t
    · rfl
  | editCoverage extension => exact .refl p
  | relocate path buildDir => exact .refl p
  | requestUberJar uberJar => exact .refl p

/-! ## Suites -/

/-- Whether each suite but the default one has the test task of its name and its source set. -/
structure RunsSuites (p : Project) : Prop where
  test : ∀ {name s}, p.suites.find? name = some s → name ≠ defaultSuite →
    ∃ t, p.task? name = some t ∧ t.purpose = .test name
  sourceSet : ∀ {name s}, p.suites.find? name = some s → name ≠ defaultSuite →
    p.sourceSets.contains s.sourceSet

/-- Test tasks stay as long as the history only grows and no suite is declared. -/
theorem RunsSuites.appends (hp : p.RunsSuites) (h : p.Appends q) (hs : q.suites = p.suites)
    (hss : q.sourceSets = p.sourceSets) : q.RunsSuites where
  test {name s} hfound hne := by
    rw [hs] at hfound
    obtain ⟨t, ht, hpurpose⟩ := hp.test hfound hne
    obtain ⟨u, hu, hut⟩ := h.task? ht
    exact ⟨u, hu, hut.trans hpurpose⟩
  sourceSet hfound hne := by
    rw [hs] at hfound
    rw [hss]
    exact hp.sourceSet hfound hne

/-- A fresh project has no suite but the default one. -/
theorem runsSuites_fresh (path buildDir : String) : (fresh path buildDir).RunsSuites := by
  have honly : ∀ {name s}, (fresh path buildDir).suites.find? name = some s → name = defaultSuite := by
    intro name s h
    rw [fresh, SortedMap.find?_insert] at h
    split at h
    · assumption
    · cases h
  exact ⟨fun h hne => absurd (honly h) hne, fun h hne => absurd (honly h) hne⟩

/-- A new suite comes with its test task and its source set. -/
theorem runsSuites_addSuite {name : String} {file sourceSet : Option String} (hp : p.RunsSuites)
    (h : p.addSuite name file sourceSet = .ok q) : q.RunsSuites := by
  obtain ⟨_, hfree, m, suite, hg, ⟨_, hset⟩, rfl⟩ := addSuite_ok h
  have hm : m.RunsSuites := hp.appends (.of_grows hg) hg.suites hg.sourceSets
  constructor
  · intro other s hfound hne
    by_cases he : other = name
    · subst he
      refine ⟨p.conform { name := other, action := .test { suite := other } }, ?_, ?_⟩
      · change m.task? other = _
        have hnone : p.task? other = none := TaskGraph.contains_eq_false_iff.mp hfree
        rw [hg.task?, hnone, Option.none_or, List.find?_singleton, name_conform]
        simp
      · unfold conform
        split <;> rfl
    · rw [SortedMap.find?_insert_of_ne _ he] at hfound
      exact hm.test hfound hne
  · intro other s hfound hne
    rw [SortedSet.contains_add]
    by_cases he : other = name
    · subst he
      rw [SortedMap.find?_insert_self] at hfound
      obtain rfl := Option.some.inj hfound
      rw [hset, decide_eq_true rfl, Bool.true_or]
    · rw [SortedMap.find?_insert_of_ne _ he] at hfound
      rw [hm.sourceSet hfound hne, Bool.or_true]

/-- Only the declaration of a suite changes the suites. -/
theorem runsSuites_run (operation : Operation) (hp : p.RunsSuites) : (operation.run p).RunsSuites := by
  have hcontinues : ∀ {q}, p.Appends q → p.Continues q → q.RunsSuites :=
    fun ha hc => hp.appends ha hc.suites hc.sourceSets
  have ha := appends_run operation p
  cases operation with
  | addSuite name file sourceSet =>
    exact of_attempted (P := RunsSuites) hp fun q h => runsSuites_addSuite hp h
  | enableCoverage reportsDir =>
    refine of_attempted (P := RunsSuites) hp fun q h => ?_
    exact hcontinues (appends_enableCoverage h) (continues_enableCoverage h)
  | register t =>
    refine of_attempted (P := RunsSuites) hp fun q h => ?_
    exact hcontinues (.of_grows (register_ok h)) (continues_register h)
  | configure pass => exact hcontinues ha (pass.continues_configure p)
  | synthesize pass suite =>
    rw [Operation.run, attempted_synthesize] at ha ⊢
    exact hcontinues ha (pass.continues_synthesizeAll [suite] p)
  | apply c => exact hp.appends ha rfl rfl
  | configureReports convention => exact hp.appends ha rfl rfl
  | editExecution task excludedLoaders properties => exact hp.appends ha rfl rfl
  | editCoverage extension => exact hp.appends ha rfl rfl
  | relocate path buildDir => exact hp.appends ha rfl rfl
  | requestUberJar uberJar => exact hp.appends ha rfl rfl

/-- In a reachable project each suite has its test task and its source set. -/
theorem Reachable.runsSuites (h : p.Reachable) : p.RunsSuites := by
  induction h with
  | fresh path buildDir => exact runsSuites_fresh path buildDir
  | run operation _ ih => exact runsSuites_run operation ih

/-- The test task that a project starts with stays the one of the default suite. -/
theorem Reachable.exists_defaultTestTask (h : p.Reachable) :
    ∃ t, p.task? defaultTestTask = some t ∧ t.purpose = .test defaultSuite := by
  induction h with
  | fresh path buildDir => exact ⟨_, rfl, rfl⟩
  | run operation _ ih =>
    obtain ⟨t, ht, hpurpose⟩ := ih
    obtain ⟨u, hu, hsame⟩ := (appends_run operation _).task? ht
    exact ⟨u, hu, hsame.trans hpurpose⟩

/-- No suite is called `test`, for the task of that name runs the default suite. -/
theorem Reachable.contains_defaultTestTask (h : p.Reachable) :
    p.suites.contains defaultTestTask = false := by
  by_contra hc
  rw [Bool.not_eq_false, SortedMap.contains] at hc
  obtain ⟨s, hs⟩ := Option.isSome_iff_exists.mp hc
  obtain ⟨t, ht, hpurpose⟩ := h.runsSuites.test hs (by decide)
  obtain ⟨u, hu, hdefault⟩ := h.exists_defaultTestTask
  obtain rfl := Option.some.inj (ht.symm.trans hu)
  rw [hpurpose] at hdefault
  exact absurd hdefault (by decide)

/-! ## Reachable projects -/

/-- The default suite is there once. -/
theorem WellFormed.existsUnique_defaultSuite (h : p.WellFormed) :
    ∃! s, s ∈ p.suites.values ∧ s.name = defaultSuite := by
  obtain ⟨s, _, hs, _⟩ := h.default_data
  refine ⟨s, ⟨SortedMap.mem_values_iff.mpr ⟨_, hs⟩, h.suite_name hs⟩, ?_⟩
  rintro t ⟨ht, hname⟩
  obtain ⟨name, ht⟩ := SortedMap.mem_values_iff.mp ht
  rw [h.suite_name ht] at hname
  rw [hname, hs] at ht
  exact (Option.some.inj ht).symm

/-- In a reachable project a name stands for one task, the default suite is there once, and all other
suites have their test tasks and source sets; whatever is done next puts tasks behind the others and
leaves their names and purposes alone. -/
theorem reachable_store (hp : p.Reachable) :
    p.tasks.names.Nodup ∧
    (∀ name t, p.task? name = some t ↔ t ∈ p.tasks.tasks ∧ t.name = name) ∧
    (∃! s, s ∈ p.suites.values ∧ s.name = defaultSuite) ∧
    (∀ s ∈ p.suites.values, s.name ≠ defaultSuite →
      (∃ t e, p.task? s.name = some t ∧ t.action = .test e ∧ e.suite = s.name) ∧
        p.sourceSets.contains s.sourceSet) ∧
    ∀ operation : Operation, p.tasks.entries <+: (operation.run p).tasks.entries := by
  refine ⟨p.tasks.nodup_names, fun name t => TaskGraph.get?_eq_some_iff,
    hp.wellFormed.existsUnique_defaultSuite, ?_, fun operation => appends_run operation p⟩
  intro s hs hne
  obtain ⟨name, hfound⟩ := SortedMap.mem_values_iff.mp hs
  rw [hp.wellFormed.suite_name hfound] at hne ⊢
  obtain ⟨t, ht, hpurpose⟩ := hp.runsSuites.test hfound hne
  obtain ⟨execution, ha, hsuite⟩ := Task.purpose_eq_test_iff.mp hpurpose
  exact ⟨⟨t, execution, ht, ha, hsuite⟩, hp.runsSuites.sourceSet hfound hne⟩

/-- A project whose task of a hand-picked name stops the pass over it. -/
def blockedSample : Project :=
  Operation.run (Operation.run sample (.register { name := "coverage-report-slow", action := .compile }))
    (.configure .sample)

/-- The pass has stopped at the taken name: what it registered before that stands behind the task in its
way, and stays there whatever comes. -/
theorem blockedSample_store :
    blockedSample.Reachable ∧
      blockedSample.tasks.names = ["classes", "test", "slow", "coverage-report-slow", "coverage-report",
        "coverage-verification"] ∧
      (∃ t e, blockedSample.task? "slow" = some t ∧ t.action = .test e ∧ e.suite = "slow") ∧
      ∀ operation : Operation,
        blockedSample.tasks.entries <+: (operation.run blockedSample).tasks.entries := by
  have hr : blockedSample.Reachable := .run (.configure .sample) (.run (.register _) reachable_sample)
  obtain ⟨_, _, _, hsuites, happends⟩ := reachable_store hr
  have hslow : (⟨"slow", some ⟨"slow", "build/slow.exec"⟩, "slow"⟩ : TestSuite) ∈
      blockedSample.suites.values := by decide
  exact ⟨hr, by decide, (hsuites _ hslow (by decide)).1, happends⟩

end Project

end BuildGraph
