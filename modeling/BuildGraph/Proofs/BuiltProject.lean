import BuildGraph.Proofs.Reachable
import BuildGraph.Workspace

/-!
# Projects as settings make them

What a fresh project has and neither capabilities nor suites take away, a project has that is made from
settings. So it is reachable, has no coverage, and has no tasks but those that compile and the test tasks
of its suites. Every suite but the default one has the task of its name. Whether a project can be made at
all is not the subject; names that clash are faults there.
-/

namespace BuildGraph

open Project

/-! ## Making projects -/

namespace Workspace

variable {P : Project → Prop} {p q : Project}

/-- What toolchains preserve holds after a list of them. -/
theorem of_applyToolchains (happly : ∀ q t, P q → P (q.apply (.toolchain t))) {names : List String}
    (hp : P p) (h : applyToolchains names p = .ok q) : P q := by
  induction names generalizing p with
  | nil =>
    obtain rfl := Except.ok.inj h
    exact hp
  | cons name names ih =>
    rw [applyToolchains] at h
    split at h
    · cases h
    · exact ih (happly p _ hp) h

/-- What each of the given suites preserves holds after all of them. -/
theorem of_addSuites {suites : List Settings.Suite}
    (hadd : ∀ suite ∈ suites, ∀ q r, P q →
      q.addSuite suite.name (suite.executionData.map (Path.join q.buildDir ·)) suite.sourceSet = .ok r →
      P r)
    (hp : P p) (h : addSuites suites p = .ok q) : P q := by
  induction suites generalizing p with
  | nil =>
    obtain rfl := Except.ok.inj h
    exact hp
  | cons suite suites ih =>
    rw [addSuites] at h
    split at h
    · cases h
    · rename_i m hm
      obtain ⟨hfirst, hrest⟩ := List.forall_mem_cons.mp hadd
      exact ih hrest (hfirst p m hp hm) h

/-- What holds of a fresh project, and of any project after it has got a capability other than coverage
or one of the suites, holds of the project that settings make. -/
theorem of_buildProject {c : Context} {spec : Settings.Project}
    (hfresh : P { Project.fresh spec.path (buildDir c spec) with uberJar := spec.uberJar })
    (happly : ∀ q capability, capability ≠ .coverage → P q → P (q.apply capability))
    (hadd : ∀ suite ∈ spec.suites, ∀ q r, P q →
      q.addSuite suite.name (suite.executionData.map (Path.join q.buildDir ·)) suite.sourceSet = .ok r →
      P r)
    (h : buildProject c spec = .ok p) : P p := by
  obtain ⟨m, hm, h⟩ := except_bind_ok h
  refine of_addSuites hadd (of_applyToolchains (fun q t => happly q _ nofun) ?_ hm) (except_mapError_ok h)
  split
  · exact happly _ _ nofun hfresh
  · exact hfresh

/-- Toolchains and suites leave the build directory where the settings put it. -/
theorem buildDir_of_buildProject {c : Context} {spec : Settings.Project} (h : buildProject c spec = .ok p) :
    p.buildDir = buildDir c spec := by
  refine of_buildProject (P := (·.buildDir = buildDir c spec)) rfl (fun q capability _ hq => hq) ?_ h
  intro suite _ q r hq hr
  obtain ⟨_, _, m, _, hg, _, rfl⟩ := addSuite_ok hr
  exact hg.buildDir.trans hq

/-- A project has the capability of a matrix build exactly if its path ends in a cell. -/
theorem has_matrixBuild_of_buildProject {c : Context} {spec : Settings.Project}
    (h : buildProject c spec = .ok p) :
    p.has .matrixBuild = (matrixCell? spec.path c.settings.matrix).isSome := by
  let P : Project → Prop := (·.has .matrixBuild = (matrixCell? spec.path c.settings.matrix).isSome)
  obtain ⟨m, hm, h⟩ := except_bind_ok h
  refine of_addSuites (P := P) ?_ (of_applyToolchains (P := P) ?_ ?_ hm) (except_mapError_ok h)
  · intro suite _ q r hq hr
    obtain ⟨_, _, m, _, hg, _, rfl⟩ := addSuite_ok hr
    exact (congrArg (·.contains Capability.matrixBuild) hg.capabilities).trans hq
  · intro q t hq
    exact (has_apply q (.toolchain t) .matrixBuild).trans hq
  · split
    · rename_i hcell
      exact (has_apply _ .matrixBuild .matrixBuild).trans hcell.symm
    · rename_i hcell
      rw [Bool.not_eq_true] at hcell
      exact hcell.symm

/-- What holds of each project as it is made holds of all projects of a workspace. -/
theorem of_buildEach {c : Context} {specs : List Settings.Project} {projects : List Project}
    (hP : ∀ spec ∈ specs, ∀ p, buildProject c spec = .ok p → P p)
    (h : buildEach c specs = .ok projects) : ∀ p ∈ projects, P p := by
  induction specs generalizing projects with
  | nil =>
    obtain rfl := Except.ok.inj h
    exact List.forall_mem_nil _
  | cons spec specs ih =>
    rw [buildEach] at h
    split at h
    · cases h
    · rename_i p hp
      obtain ⟨rest, hrest, rfl⟩ := except_map_ok h
      obtain ⟨hfirst, hlater⟩ := List.forall_mem_cons.mp hP
      exact List.forall_mem_cons.mpr ⟨hfirst p hp, ih hlater hrest⟩

end Workspace

/-! ## What is there -/

/-- The names of the tasks that a project may have besides those of its suites. -/
def builtinTaskNames : List String :=
  classesTask :: defaultTestTask :: Toolchain.all.map Toolchain.generatedSourcesTask

/-- The task of each toolchain is among those that a project may have besides suites. -/
theorem generatedSourcesTask_mem_builtinTaskNames (t : Toolchain) :
    t.generatedSourcesTask ∈ builtinTaskNames := by
  cases t
  decide

/-- Whether a project has suites and no coverage. -/
structure Built (p : Project) : Prop where
  reachable : p.Reachable
  uncovered : p.has .coverage = false
  outline : ∀ t ∈ p.tasks.tasks, t.outline? = none
  names : ∀ t ∈ p.tasks.tasks, p.suites.contains t.name ∨ t.name ∈ builtinTaskNames
  suite_task : ∀ name, p.suites.contains name → name ≠ defaultSuite → p.tasks.contains name

namespace Built

variable {p q : Project}

/-- A fresh project has no coverage and no suite of its own. -/
theorem fresh (path buildDir : String) : Built (Project.fresh path buildDir) where
  reachable := .fresh path buildDir
  uncovered := rfl
  outline t ht := by
    rcases List.mem_pair.mp ht with rfl | rfl <;> rfl
  names t ht := by
    refine Or.inr ?_
    rcases List.mem_pair.mp ht with rfl | rfl
    · exact List.mem_cons_self ..
    · exact List.mem_cons_of_mem _ (List.mem_cons_self ..)
  suite_task name hc hne := by
    rw [SortedMap.contains, Project.fresh, SortedMap.find?_insert, if_neg hne] at hc
    cases hc

theorem requestUberJar (h : Built p) (uberJar : Bool) : Built { p with uberJar } where
  reachable := .run (.requestUberJar uberJar) h.reachable
  uncovered := h.uncovered
  outline := h.outline
  names := h.names
  suite_task := h.suite_task

/-- A capability other than coverage brings no coverage. -/
theorem apply (h : Built p) {c : Capability} (hc : c ≠ .coverage) : Built (p.apply c) := by
  obtain ⟨ts, ht, hcompile, _⟩ := p.tasks_apply c
  refine ⟨.run (.apply c) h.reachable, ?_, ?_, ?_, ?_⟩
  · rw [has_apply, h.uncovered, Bool.or_false, decide_eq_false hc.symm]
  · intro t hm
    rw [ht] at hm
    rcases List.mem_append.mp hm with hm | hm
    · exact h.outline t hm
    · rw [Task.outline?, (hcompile t hm).1]
  · intro t hm
    rw [ht] at hm
    rcases List.mem_append.mp hm with hm | hm
    · exact h.names t hm
    · obtain ⟨_, k, hk⟩ := hcompile t hm
      rw [hk]
      exact Or.inr (generatedSourcesTask_mem_builtinTaskNames k)
  · intro name hs hne
    exact contains_apply c (h.suite_task name hs hne)

/-- A suite brings its test task and no coverage. -/
theorem addSuite (h : Built p) {name : String} {file sourceSet : Option String}
    (hq : p.addSuite name file sourceSet = .ok q) : Built q := by
  have hreach : q.Reachable := by
    have hrun : (Operation.addSuite name file sourceSet).run p = q := by
      rw [Operation.run, hq, attempted]
    rw [← hrun]
    exact .run _ h.reachable
  obtain ⟨_, _, m, suite, hg, _, rfl⟩ := addSuite_ok hq
  have hinsert : ∀ other, (m.suites.insert name suite).contains other =
      (decide (other = name) || p.suites.contains other) := by
    intro other
    rw [SortedMap.contains, SortedMap.find?_insert, hg.suites, SortedMap.contains]
    split <;> simp [*]
  refine ⟨hreach, ?_, ?_, ?_, ?_⟩
  · exact (congrArg (·.contains Capability.coverage) hg.capabilities).trans h.uncovered
  · intro t ht
    rw [hg.tasks] at ht
    rcases List.mem_append.mp ht with ht | ht
    · exact h.outline t ht
    · rw [List.mem_singleton.mp ht, outline?_conform]
      rfl
  · intro t ht
    rw [hg.tasks] at ht
    rw [hinsert]
    rcases List.mem_append.mp ht with ht | ht
    · rcases h.names t ht with hn | hn
      · exact Or.inl (by rw [hn, Bool.or_true])
      · exact Or.inr hn
    · rw [List.mem_singleton.mp ht, name_conform]
      exact Or.inl (by rw [decide_eq_true rfl, Bool.true_or])
  · intro other hs hne
    rw [hinsert, Bool.or_eq_true, decide_eq_true_iff] at hs
    rw [TaskGraph.contains_iff_mem_names, hg.names]
    rcases hs with rfl | hs
    · exact List.mem_append_right _ (by simp [name_conform])
    · exact List.mem_append_left _ (TaskGraph.contains_iff_mem_names.mp (h.suite_task other hs hne))

/-- What settings make has suites and no coverage. -/
theorem of_buildProject {c : Context} {spec : Settings.Project}
    (h : Workspace.buildProject c spec = .ok p) : Built p :=
  Workspace.of_buildProject ((fresh spec.path (Workspace.buildDir c spec)).requestUberJar spec.uberJar)
    (fun _ _ hc hq => hq.apply hc) (fun _ _ _ _ hq hr => hq.addSuite hr) h

/-- No project has coverage when the workspace has been made. -/
theorem of_buildEach {c : Context} {specs : List Settings.Project} {projects : List Project}
    (h : Workspace.buildEach c specs = .ok projects) : ∀ p ∈ projects, Built p :=
  Workspace.of_buildEach (fun _ _ _ hp => of_buildProject hp) h

/-! ## Names of coverage tasks -/

/-- Before any pass no name is held by a coverage task. -/
theorem not_holds (h : Built p) {name suite : String} {kind : CoverageKind} :
    ¬ p.Holds name kind suite := by
  rintro ⟨t, ht, hs⟩
  obtain ⟨o, ho, _⟩ := Task.suiteFor?_eq_some_iff.mp hs
  rw [h.outline t (TaskGraph.get?_eq_some_iff.mp ht).1] at ho
  cases ho

/-- A name is free unless a suite or a builtin task has it. -/
theorem task?_eq_none (h : Built p) {name : String} (hs : p.suites.contains name = false)
    (hb : name ∉ builtinTaskNames) : p.task? name = none := by
  rw [Project.task?, TaskGraph.get?_eq_none_iff]
  intro hm
  obtain ⟨t, ht, rfl⟩ := List.mem_map.mp hm
  rcases h.names t ht with hn | hn
  · rw [hs] at hn
    cases hn
  · exact hb hn

/-- A name that becomes a coverage task's was free, and no suite has it. -/
theorem free_of_holds (h : Built p) (hc : p.Continues q) {name suite : String} {kind : CoverageKind}
    (hh : q.Holds name kind suite) : p.tasks.contains name = false := by
  by_contra hn
  exact h.not_holds (hc.holds_of_contains (by simpa using hn) hh)

/-- A free name is no suite's, since each suite but the default one has a test task of its name. -/
theorem suites_of_free (h : Built p) {name : String} (hn : p.tasks.contains name = false)
    (hd : name ≠ defaultSuite) : p.suites.contains name = false := by
  by_contra hs
  rw [h.suite_task name (by simpa using hs) hd] at hn
  cases hn

end Built

end BuildGraph
