import BuildGraph.Proofs.Pass

/-!
# What a pass does to tasks

A pass settles each task that a project has, and registers tasks for its suites. Settling keeps names
and outlines and is done once and for all. The tasks that are registered are known from the suites alone:
a name determines the task, and nothing about it is left to settle.
-/

namespace BuildGraph

/-! ## Toolchains -/

namespace SortedMap

variable {κ υ α : Type} [Ord κ] [Std.TransOrd κ] [Std.LawfulEqOrd κ]

/-- A binding whose key is passed over does not show. -/
theorem filterMap_keys_insert {f : κ → Option α} {key : κ} (h : f key = none) (m : SortedMap κ υ)
    (value : υ) : (m.insert key value).keys.filterMap f = m.keys.filterMap f := by
  obtain ⟨l, hl⟩ := m
  change ((insertEntry key value l).map (·.1)).filterMap f = (l.map (·.1)).filterMap f
  clear hl
  induction l with
  | nil => simp [insertEntry, h]
  | cons e l ih =>
    obtain ⟨k, v⟩ := e
    rw [insertEntry]
    split
    · simp [h]
    · rename_i heq
      obtain rfl := Std.LawfulEqOrd.eq_of_compare heq
      simp [h]
    · rw [List.map_cons, List.filterMap_cons, ih, List.map_cons, List.filterMap_cons]

end SortedMap

namespace Project

/-- Coverage does not change the toolchains. -/
theorem toolchains_add {p q : Project} {c : Capability} (hc : ∀ t, c ≠ .toolchain t)
    (h : q.capabilities = p.capabilities.add c) : q.toolchains = p.toolchains := by
  rw [toolchains, h]
  refine SortedMap.filterMap_keys_insert ?_ p.capabilities ()
  cases c with
  | toolchain t => exact absurd rfl (hc t)
  | _ => rfl

end Project

namespace CoveragePass

open Project

variable {pass : CoveragePass} {p : Project} {suite : String} {t u : Task}

/-! ## Tasks that a project keeps -/

/-- A task as a pass leaves it. -/
def settle (pass : CoveragePass) (p : Project) (t : Task) : Task :=
  Toolchain.adjustTask p.toolchains (t.followConvention pass.convention)

/-- Settling a task keeps its outline. -/
theorem outline?_settle (pass : CoveragePass) (p : Project) (t : Task) :
    (pass.settle p t).outline? = t.outline? := by
  rw [settle, Toolchain.outline?_adjustTask, Task.outline?_followConvention]

/-- A settled task stays as it is. -/
theorem settle_settle (pass : CoveragePass) (p : Project) (t : Task) :
    pass.settle p (pass.settle p t) = pass.settle p t := by
  have hfollows := Task.followConvention_followConvention t pass.convention
  rw [settle, settle, Toolchain.followConvention_adjustTask hfollows, Toolchain.adjustTask_adjustTask]

/-- A task that follows the convention has only to be adjusted. -/
theorem settle_of_follows (p : Project) (h : t.followConvention pass.convention = t) :
    pass.settle p t = Toolchain.adjustTask p.toolchains t := by
  rw [settle, h]

/-! ## Tasks that a project gains -/

/-- Where reports go unless somebody has said otherwise. -/
def reportsHome (pass : CoveragePass) (p : Project) : String := Path.join p.buildDir pass.reportsDir

/-- Whether a pass registers a task for a suite of a project. -/
inductive Registers (pass : CoveragePass) (p : Project) : Task → Prop where
  | host {t : Task} (hc : p.has .coverage = false) (ht : t ∈ p.hostTasks (pass.reportsHome p)) :
    Registers pass p (t.followConvention pass.convention)
  | suite {suite : String} {inputs : CoverageInputs} {t : Task} (hs : p.suites.contains suite)
    (hd : suite ≠ defaultSuite) (hi : suiteInputs p suite = .ok inputs)
    (ht : t ∈ [pass.reportTask inputs (pass.reportsHome p), verificationTask inputs]) :
    Registers pass p t

/-- The two coverage tasks of a suite do not compete for one name. -/
theorem nodup_suiteTaskNames (suite : String) : (suiteTaskNames suite).Nodup := by
  simp [suiteTaskNames, reportTaskName_ne_verificationTaskName]

/-- The tasks of the default suite have the two names set aside for them. -/
theorem name_of_mem_hostTasks {dir : String} (ht : t ∈ p.hostTasks dir) : t.name ∈ hostTaskNames :=
  (p.names_hostTasks_sublist dir).subset (List.mem_map_of_mem ht)

/-- The tasks of any other suite have the two names that its own name gives them. -/
theorem name_of_mem_suiteTasks {inputs : CoverageInputs} {home : String}
    (ht : t ∈ [pass.reportTask inputs home, verificationTask inputs]) :
    t.name ∈ suiteTaskNames inputs.suite :=
  List.mem_map_of_mem (f := (·.name)) ht

/-- The tasks of the default suite are coverage tasks. -/
theorem outline?_of_mem_hostTasks {dir : String} (ht : t ∈ p.hostTasks dir) : t.outline?.isSome := by
  unfold hostTasks at ht
  split at ht
  · rcases List.mem_pair.mp ht with rfl | rfl <;> rfl
  · cases ht

/-- The tasks of a suite follow the convention from the start. -/
theorem follows_of_mem_suiteTasks {inputs : CoverageInputs} {home : String}
    (ht : t ∈ [pass.reportTask inputs home, verificationTask inputs]) :
    t.followConvention pass.convention = t := by
  rcases List.mem_pair.mp ht with rfl | rfl
  · simp only [reportTask, Task.followConvention, Report.follow_follow]
  · rfl

namespace Registers

/-- A registered task has a name of the default suite's coverage tasks, or one of another suite with
inputs. -/
theorem name (h : pass.Registers p t) :
    (p.has .coverage = false ∧ t.name ∈ hostTaskNames) ∨
      ∃ suite inputs, p.suites.contains suite ∧ suite ≠ defaultSuite ∧
        suiteInputs p suite = .ok inputs ∧ t.name ∈ suiteTaskNames suite := by
  cases h with
  | host hc ht =>
    rw [Task.name_followConvention]
    exact Or.inl ⟨hc, name_of_mem_hostTasks ht⟩
  | @suite suite inputs _ hs hd hi ht =>
    have hname := name_of_mem_suiteTasks ht
    rw [suite_of_suiteInputs hi] at hname
    exact Or.inr ⟨suite, inputs, hs, hd, hi, hname⟩

/-- A task with a name of a suite's coverage tasks is one of them. -/
theorem of_suite (h : pass.Registers p t) (hn : t.name ∈ suiteTaskNames suite) :
    ∃ inputs, suiteInputs p suite = .ok inputs ∧
      t ∈ [pass.reportTask inputs (pass.reportsHome p), verificationTask inputs] := by
  cases h with
  | host hc ht =>
    rw [Task.name_followConvention] at hn
    exact absurd (name_of_mem_hostTasks ht) (not_mem_hostTaskNames hn)
  | suite hs hd hi ht =>
    have hname := name_of_mem_suiteTasks ht
    rw [suite_of_suiteInputs hi] at hname
    obtain rfl := suite_unique hn hname
    exact ⟨_, hi, ht⟩

/-- Two tasks that are registered have different names. -/
theorem unique (ht : pass.Registers p t) (hu : pass.Registers p u) (hn : t.name = u.name) : t = u := by
  cases ht with
  | @host t hc ht =>
    cases hu with
    | @host u _ hu =>
      rw [Task.name_followConvention, Task.name_followConvention] at hn
      have hnodup : ((p.hostTasks (pass.reportsHome p)).map (·.name)).Nodup :=
        (p.names_hostTasks_sublist _).nodup (by decide)
      rw [List.inj_on_of_nodup_map hnodup ht hu hn]
    | suite _ _ hi hu =>
      have hname := name_of_mem_suiteTasks hu
      rw [← hn, Task.name_followConvention] at hname
      exact absurd (name_of_mem_hostTasks ht) (not_mem_hostTaskNames hname)
  | @suite _ inputs t _ _ hi ht =>
    have hname := name_of_mem_suiteTasks ht
    rw [suite_of_suiteInputs hi] at hname
    obtain ⟨other, hi', hu⟩ := hu.of_suite (hn ▸ hname)
    obtain rfl : inputs = other := Except.ok.inj (hi.symm.trans hi')
    have hnodup : ([pass.reportTask inputs (pass.reportsHome p), verificationTask inputs].map
        (·.name)).Nodup := nodup_suiteTaskNames inputs.suite
    exact List.inj_on_of_nodup_map hnodup ht hu hn

/-- A pass registers coverage tasks only. -/
theorem outline? (h : pass.Registers p t) : t.outline?.isSome := by
  cases h with
  | host hc ht =>
    rw [Task.outline?_followConvention]
    exact outline?_of_mem_hostTasks ht
  | suite hs hd hi ht => rcases List.mem_pair.mp ht with rfl | rfl <;> rfl

/-- All that a pass registers follows its convention. -/
theorem follows (h : pass.Registers p t) : t.followConvention pass.convention = t := by
  cases h with
  | host hc ht => exact Task.followConvention_followConvention _ _
  | suite hs hd hi ht => exact follows_of_mem_suiteTasks ht

/-- Toolchains do not concern the tasks that are registered. -/
theorem settle_eq (h : pass.Registers p t) : pass.settle p t = t := by
  rw [settle_of_follows p h.follows]
  refine Toolchain.adjustTask_of_outline? _ h.outline? fun e => ?_
  rcases h.name with ⟨_, hn⟩ | ⟨suite, _, _, _, _, hn⟩
  · rw [e] at hn
    exact absurd hn (by decide)
  · rw [e] at hn
    exact not_mem_suiteTaskNames suite (by decide) (by decide) hn

/-- A registered task that is called as a suite's report is that report. -/
theorem suiteFor?_report (h : pass.Registers p t) (hn : t.name = reportTaskName suite) :
    t.suiteFor? .report = some suite := by
  obtain ⟨inputs, hi, ht⟩ := h.of_suite (mem_suiteTaskNames.mpr (Or.inl hn))
  rw [← suite_of_suiteInputs hi]
  rcases List.mem_pair.mp ht with rfl | rfl
  · rfl
  · exact absurd hn.symm (reportTaskName_ne_verificationTaskName _ _)

/-- A registered task that is called as a suite's verification is that verification. -/
theorem suiteFor?_verification (h : pass.Registers p t) (hn : t.name = verificationTaskName suite) :
    t.suiteFor? .verification = some suite := by
  obtain ⟨inputs, hi, ht⟩ := h.of_suite (mem_suiteTaskNames.mpr (Or.inr hn))
  rw [← suite_of_suiteInputs hi]
  rcases List.mem_pair.mp ht with rfl | rfl
  · exact absurd hn (reportTaskName_ne_verificationTaskName _ _)
  · rfl

end Registers

end CoveragePass

end BuildGraph
