import BuildGraph.Proofs.Activation

/-!
# Coverage tasks for suites

A suite that is processed ends up with its two coverage tasks, and what was there before stays in its
place. Processing a list of suites stops at the first one that fails, with exactly the earlier ones
covered. Processing the same list again creates nothing and stops at the same suite. Nothing is assumed
about the tasks that a project has at the start.
-/

namespace BuildGraph

/-! ## Names -/

/-- Texts differ if what they start with does. -/
theorem append_ne_append {a b : String} (n : Nat) (ha : n ≤ a.toList.length) (hb : n ≤ b.toList.length)
    (h : a.toList.take n ≠ b.toList.take n) (s t : String) : a ++ s ≠ b ++ t := by
  intro e
  have e := congrArg (fun x => x.toList.take n) e
  rw [String.toList_append, String.toList_append, List.take_append_of_le_length ha,
    List.take_append_of_le_length hb] at e
  exact h e

/-- A text is none that starts with something else. -/
theorem append_ne {a b : String} (h : ¬ a.toList.isPrefixOf b.toList) (s : String) : a ++ s ≠ b := by
  intro e
  rw [← e, String.toList_append] at h
  simp at h

/-- The names of the coverage tasks of a suite. -/
def suiteTaskNames (suite : String) : List String := [reportTaskName suite, verificationTaskName suite]

/-- A suite has two names for its coverage tasks: that of its report and that of its verification. -/
theorem mem_suiteTaskNames {suite name : String} :
    name ∈ suiteTaskNames suite ↔ name = reportTaskName suite ∨ name = verificationTaskName suite := by
  rw [suiteTaskNames, List.mem_cons, List.mem_singleton]

/-- No report is called as a verification, whatever the suites are called. -/
theorem reportTaskName_ne_verificationTaskName (s t : String) :
    reportTaskName s ≠ verificationTaskName t :=
  append_ne_append 10 (by decide) (by decide) (by decide) s t

/-- A suite is determined by the name of one of its coverage tasks. -/
theorem suite_unique {s t name : String} (hs : name ∈ suiteTaskNames s) (ht : name ∈ suiteTaskNames t) :
    s = t := by
  rcases mem_suiteTaskNames.mp hs with hs | hs <;> rcases mem_suiteTaskNames.mp ht with ht | ht
  · exact (String.append_right_inj "coverage-report-").mp (hs.symm.trans ht)
  · exact absurd (hs.symm.trans ht) (reportTaskName_ne_verificationTaskName s t)
  · exact absurd (ht.symm.trans hs) (reportTaskName_ne_verificationTaskName t s)
  · exact (String.append_right_inj "coverage-verification-").mp (hs.symm.trans ht)

/-- A name that starts as neither kind of coverage task is no suite's. -/
theorem not_mem_suiteTaskNames {name : String} (suite : String)
    (hr : ¬ "coverage-report-".toList.isPrefixOf name.toList)
    (hv : ¬ "coverage-verification-".toList.isPrefixOf name.toList) : name ∉ suiteTaskNames suite := by
  rw [mem_suiteTaskNames, not_or]
  exact ⟨(append_ne hr suite).symm, (append_ne hv suite).symm⟩

/-- The coverage tasks of the default suite are called otherwise. -/
theorem not_mem_hostTaskNames {suite name : String} (h : name ∈ suiteTaskNames suite) :
    name ∉ Project.hostTaskNames := by
  intro hm
  rcases List.mem_pair.mp hm with rfl | rfl
  · exact not_mem_suiteTaskNames suite (by decide) (by decide) h
  · exact not_mem_suiteTaskNames suite (by decide) (by decide) h

namespace CoveragePass

open Project

variable {pass : CoveragePass} {p q : Project} {suite : String} {fault : ProjectFault}

/-! ## Inputs -/

/-- A suite has inputs only if it is there and records data, and they are that data over the
main sources. -/
theorem suiteInputs_ok {inputs : CoverageInputs} (h : suiteInputs p suite = .ok inputs) :
    ∃ s data, p.suites.find? suite = some s ∧ s.executionData = some data ∧
      p.sourceSets.contains mainSourceSet ∧ inputs = ⟨suite, data, mainSourceSet⟩ := by
  unfold suiteInputs at h
  split at h
  · cases h
  · rename_i s hs
    split at h
    · cases h
    · rename_i data hd
      split at h
      · rename_i hm
        exact ⟨s, data, hs, hd, hm, (Except.ok.inj h).symm⟩
      · cases h

/-- A suite that is there and records data has inputs, for the main sources are there. -/
theorem suiteInputs_of_data {s : TestSuite} {data : ExecutionData}
    (hs : p.suites.find? suite = some s) (hd : s.executionData = some data)
    (hm : p.sourceSets.contains mainSourceSet) :
    suiteInputs p suite = .ok ⟨suite, data, mainSourceSet⟩ := by
  simp only [suiteInputs, hs, hd, hm, if_true]

/-- Inputs are missing with the suite, with its data, or with the source set that is measured. -/
theorem suiteInputs_error (h : suiteInputs p suite = .error fault) :
    (fault = .unknownSuite p.path suite ∧ p.suites.find? suite = none) ∨
      (fault = .incompleteSuite p.path suite ∧
        ∃ s, p.suites.find? suite = some s ∧ s.executionData = none) ∨
      (fault = .missingSourceSet p.path mainSourceSet ∧
        p.sourceSets.contains mainSourceSet = false) := by
  unfold suiteInputs at h
  split at h
  · rename_i hs
    exact Or.inl ⟨(Except.error.inj h).symm, hs⟩
  · rename_i s hs
    split at h
    · rename_i hd
      exact Or.inr (Or.inl ⟨(Except.error.inj h).symm, s, hs, hd⟩)
    · split at h
      · cases h
      · rename_i hm
        exact Or.inr (Or.inr ⟨(Except.error.inj h).symm, by simpa using hm⟩)

/-- The inputs of a suite name it. -/
theorem suite_of_suiteInputs {inputs : CoverageInputs} (h : suiteInputs p suite = .ok inputs) :
    inputs.suite = suite := by
  obtain ⟨_, _, _, _, _, rfl⟩ := suiteInputs_ok h
  rfl

/-- Tasks do not matter for the inputs. -/
theorem suiteInputs_of_grows {ts : List Task} (h : p.Grows q ts) (suite : String) :
    suiteInputs q suite = suiteInputs p suite := by
  rw [h.rest]
  rfl

/-! ## One suite -/

/-- The coverage tasks of a suite of a project. -/
def suiteTasks (pass : CoveragePass) (p : Project) (inputs : CoverageInputs) : List Task :=
  [pass.reportTask inputs (pass.reportsRoot p), verificationTask inputs]

/-- Whether a suite has its coverage tasks. -/
def Covers (p : Project) (suite : String) : Prop :=
  p.HoldsPair (reportTaskName suite) (verificationTaskName suite) suite

/-- The tasks of a suite are called by its name, report first. -/
theorem names_suiteTasks (pass : CoveragePass) (p : Project) (inputs : CoverageInputs) :
    (pass.suiteTasks p inputs).map (·.name) = suiteTaskNames inputs.suite := rfl

/-- More tasks in a project do not change what the tasks of a suite would be. -/
theorem suiteTasks_of_grows {ts : List Task} (h : p.Grows q ts) (inputs : CoverageInputs) :
    pass.suiteTasks q inputs = pass.suiteTasks p inputs := by
  rw [h.rest]
  rfl

/-- Both tasks of a suite have the same inputs. -/
theorem coverageInputs?_suiteTasks {inputs : CoverageInputs} {t : Task}
    (ht : t ∈ pass.suiteTasks p inputs) : t.coverageInputs? = some inputs := by
  rcases List.mem_pair.mp ht with rfl | rfl <;> rfl

/-- Nothing is created for the default suite, which has its tasks from activation. -/
theorem synthesize_defaultSuite (pass : CoveragePass) (p : Project) :
    pass.synthesize p defaultSuite = .ok (p, []) := by
  rw [synthesize, if_pos rfl]

/-- A suite other than the default one is processed by checking, looking up its inputs and registering. -/
theorem synthesize_eq (pass : CoveragePass) (p : Project) (hs : suite ≠ defaultSuite) :
    pass.synthesize p suite = (do
      let has ← p.checkPair (reportTaskName suite) (verificationTaskName suite) suite
      if has.1 && has.2 then return (p, [])
      let inputs ← suiteInputs p suite
      let q ← p.registerPair has (pass.reportTask inputs (pass.reportsRoot p)) (verificationTask inputs)
      return (q, (if has.1 then [] else [reportTaskName inputs.suite]) ++
        (if has.2 then [] else [verificationTaskName inputs.suite]))) := by
  rw [synthesize, if_neg hs]
  simp only [checkPair, registerPair, bind_assoc, pure_bind]
  rfl

/-- A suite that has its coverage tasks is left alone. -/
theorem synthesize_of_covers (h : Covers p suite) : pass.synthesize p suite = .ok (p, []) := by
  by_cases hs : suite = defaultSuite
  · rw [hs, synthesize_defaultSuite]
  · rw [synthesize_eq pass p hs, checkPair_eq_true_iff.mpr h]
    rfl

/-- Once the names are checked, the coverage tasks of a suite that has its inputs are registered as far as
they are absent. -/
theorem registerPair_suite (pass : CoveragePass) {inputs : CoverageInputs} {has : Bool × Bool}
    (hi : suiteInputs p suite = .ok inputs)
    (hc : p.checkPair (reportTaskName suite) (verificationTaskName suite) suite = .ok has) :
    ∃ q, p.registerPair has (pass.reportTask inputs (pass.reportsRoot p)) (verificationTask inputs) =
        .ok q ∧
      p.Grows q (p.absent (pass.suiteTasks p inputs)) ∧ Covers q suite := by
  obtain rfl := suite_of_suiteInputs hi
  exact registerPair_of_checked (r := pass.reportTask inputs (pass.reportsRoot p))
    (v := verificationTask inputs) hc rfl rfl (reportTaskName_ne_verificationTaskName _ _)

/-- Once the names are checked and the inputs are there, nothing is in the way. -/
theorem synthesize_of_checked (pass : CoveragePass) {inputs : CoverageInputs} {has : Bool × Bool}
    (hs : suite ≠ defaultSuite)
    (hc : p.checkPair (reportTaskName suite) (verificationTaskName suite) suite = .ok has)
    (hi : suiteInputs p suite = .ok inputs) (hb : (has.1 && has.2) = false) :
    ∃ q, pass.synthesize p suite = .ok (q, (p.absent (pass.suiteTasks p inputs)).map (·.name)) ∧
      p.Grows q (p.absent (pass.suiteTasks p inputs)) ∧ Covers q suite := by
  obtain ⟨q, hq, hg, hcovers⟩ := pass.registerPair_suite hi hc
  obtain ⟨hr, hv⟩ := checkPair_eq_ok_iff.mp hc
  have hn : (p.absent (pass.suiteTasks p inputs)).map (·.name) =
      (if has.1 then [] else [reportTaskName inputs.suite]) ++
        (if has.2 then [] else [verificationTaskName inputs.suite]) := by
    rw [names_absent, names_suiteTasks, suiteTaskNames, List.filter_cons, List.filter_cons,
      suite_of_suiteInputs hi, contains_of_hasCoverageTask hr, contains_of_hasCoverageTask hv]
    cases has.1 <;> cases has.2 <;> rfl
  refine ⟨q, ?_, hg, hcovers⟩
  rw [synthesize_eq pass p hs, hc, hn]
  simp only [bind, Except.bind, hb, hi, hq]
  rfl

/-- A suite that is processed has its coverage tasks. They were there, or they were registered as far as
they were absent. -/
theorem synthesize_ok {created : List String} (hs : suite ≠ defaultSuite)
    (h : pass.synthesize p suite = .ok (q, created)) :
    ∃ ts, p.Grows q ts ∧ created = ts.map (·.name) ∧ Covers q suite ∧
      ∀ t ∈ ts, ∃ inputs, suiteInputs p suite = .ok inputs ∧
        t ∈ (pass.suiteTasks p inputs).map p.conform := by
  have h' := h
  rw [synthesize_eq pass p hs] at h
  obtain ⟨⟨hasReport, hasVerification⟩, hc, h⟩ := except_bind_ok h
  cases hb : hasReport && hasVerification with
  | true =>
    obtain ⟨rfl, rfl⟩ := Bool.and_eq_true_iff.mp hb
    have hcovers : Covers p suite := checkPair_eq_true_iff.mp hc
    rw [synthesize_of_covers hcovers] at h'
    obtain ⟨rfl, rfl⟩ := Prod.mk.inj (Except.ok.inj h')
    exact ⟨[], Grows.refl p, rfl, hcovers, by simp⟩
  | false =>
    simp only [hb] at h
    obtain ⟨inputs, hi, h⟩ := except_bind_ok h
    obtain ⟨q', hq, hg, hcovers⟩ := pass.synthesize_of_checked hs hc hi hb
    obtain ⟨rfl, rfl⟩ := Prod.mk.inj (Except.ok.inj (hq.symm.trans h'))
    refine ⟨_, hg, rfl, hcovers, fun t ht => ⟨inputs, hi, ?_⟩⟩
    obtain ⟨u, hu, rfl⟩ := List.mem_map.mp ht
    exact List.mem_map_of_mem (List.mem_of_mem_filter hu)

/-- Processing a suite fails at a check or for want of inputs, or not at all. -/
theorem checkPair_of_synthesize_error (h : pass.synthesize p suite = .error fault) :
    suite ≠ defaultSuite ∧
      (p.checkPair (reportTaskName suite) (verificationTaskName suite) suite = .error fault ∨
        suiteInputs p suite = .error fault) := by
  have hs : suite ≠ defaultSuite := by
    rintro rfl
    rw [synthesize_defaultSuite] at h
    cases h
  refine ⟨hs, ?_⟩
  have h' := h
  rw [synthesize_eq pass p hs] at h
  rcases except_bind_error h with hfault | ⟨has, hc, h⟩
  · exact Or.inl hfault
  cases hb : has.1 && has.2 with
  | true =>
    simp only [hb] at h
    cases h
  | false =>
    simp only [hb] at h
    rcases except_bind_error h with hmissing | ⟨inputs, hi, _⟩
    · exact Or.inr hmissing
    · obtain ⟨q, hq, _⟩ := pass.synthesize_of_checked hs hc hi hb
      cases hq.symm.trans h'

/-- Another holder of one of the names is in the way, or something that the inputs need is missing. -/
theorem synthesize_error (h : pass.synthesize p suite = .error fault) :
    suite ≠ defaultSuite ∧
      ((∃ name ∈ suiteTaskNames suite, fault = .duplicateTask p.path name) ∨
        suiteInputs p suite = .error fault) := by
  obtain ⟨hs, hc | hi⟩ := checkPair_of_synthesize_error h
  · obtain ⟨name, hn, hf, _⟩ := checkPair_error hc
    exact ⟨hs, Or.inl ⟨name, hn, hf⟩⟩
  · exact ⟨hs, Or.inr hi⟩

/-! ## Many suites -/

/-- After a suite that is processed the others follow, and what is created is listed in order. -/
theorem synthesizeAll_cons_ok {suites created : List String}
    (h : pass.synthesize p suite = .ok (q, created)) :
    pass.synthesizeAll (suite :: suites) p =
      ((pass.synthesizeAll suites q).1, (pass.synthesizeAll suites q).2.map (created ++ ·)) := by
  rw [synthesizeAll, h]

/-- A suite that fails ends the processing, with the project as it was before it. -/
theorem synthesizeAll_cons_error {suites : List String} (h : pass.synthesize p suite = .error fault) :
    pass.synthesizeAll (suite :: suites) p = (p, .error fault) := by
  rw [synthesizeAll, h]

/-- Whether a task is a coverage task of one of the suites, in the form in which it is registered. -/
def IsSuiteTask (pass : CoveragePass) (p : Project) (suites : List String) (t : Task) : Prop :=
  ∃ suite ∈ suites, suite ≠ defaultSuite ∧
    ∃ inputs, suiteInputs p suite = .ok inputs ∧ t ∈ (pass.suiteTasks p inputs).map p.conform

/-- What is a suite's task in the grown project was one before. -/
theorem isSuiteTask_of_grows {suites : List String} {ts : List Task} {t : Task} (h : p.Grows q ts)
    (ht : pass.IsSuiteTask q suites t) : pass.IsSuiteTask p suites t := by
  obtain ⟨suite, hm, hs, inputs, hi, ht⟩ := ht
  have hc : q.conform = p.conform := by rw [h.rest]; rfl
  rw [suiteTasks_of_grows h, hc] at ht
  exact ⟨suite, hm, hs, inputs, (suiteInputs_of_grows h suite).symm.trans hi, ht⟩

/-- With more suites to choose from, a suite's task remains one. -/
theorem IsSuiteTask.mono {suites more : List String} {t : Task} (h : pass.IsSuiteTask p suites t)
    (hs : ∀ suite ∈ suites, suite ∈ more) : pass.IsSuiteTask p more t := by
  obtain ⟨suite, hm, h⟩ := h
  exact ⟨suite, hs suite hm, h⟩

/-- What a suite lacks has one of its names and its inputs. -/
theorem IsSuiteTask.inputs {suites : List String} {t : Task} (h : pass.IsSuiteTask p suites t) :
    ∃ suite ∈ suites, suite ≠ defaultSuite ∧ t.name ∈ suiteTaskNames suite ∧
      ∃ inputs, suiteInputs p suite = .ok inputs ∧ t.coverageInputs? = some inputs := by
  obtain ⟨suite, hm, hs, inputs, hi, ht⟩ := h
  obtain ⟨u, hu, rfl⟩ := List.mem_map.mp ht
  refine ⟨suite, hm, hs, ?_, inputs, hi, ?_⟩
  · have hn : u.name ∈ (pass.suiteTasks p inputs).map (·.name) := List.mem_map_of_mem hu
    rwa [names_suiteTasks, suite_of_suiteInputs hi, ← name_conform p u] at hn
  · rw [Task.coverageInputs?_eq, outline?_conform, ← Task.coverageInputs?_eq]
    exact coverageInputs?_suiteTasks hu

/-- Processing suites puts what they lack behind the other tasks, also if it fails. -/
theorem synthesizeAll_grows (pass : CoveragePass) (suites : List String) (p : Project) :
    ∃ ts, p.Grows (pass.synthesizeAll suites p).1 ts ∧ (∀ t ∈ ts, pass.IsSuiteTask p suites t) ∧
      ∀ created, (pass.synthesizeAll suites p).2 = .ok created → created = ts.map (·.name) := by
  induction suites generalizing p with
  | nil => exact ⟨[], Grows.refl p, by simp, fun created h => (Except.ok.inj h).symm⟩
  | cons suite suites ih =>
    cases h : pass.synthesize p suite with
    | error fault =>
      rw [synthesizeAll_cons_error h]
      exact ⟨[], Grows.refl p, by simp, fun created h => by cases h⟩
    | ok r =>
      obtain ⟨q, new⟩ := r
      have hone : ∃ ts, p.Grows q ts ∧ new = ts.map (·.name) ∧
          ∀ t ∈ ts, pass.IsSuiteTask p (suite :: suites) t := by
        by_cases hs : suite = defaultSuite
        · rw [hs, synthesize_defaultSuite] at h
          obtain ⟨rfl, rfl⟩ := Prod.mk.inj (Except.ok.inj h)
          exact ⟨[], Grows.refl _, rfl, by simp⟩
        · obtain ⟨ts, hg, hn, _, ht⟩ := synthesize_ok hs h
          exact ⟨ts, hg, hn, fun t hm => ⟨suite, List.mem_cons_self .., hs, ht t hm⟩⟩
      obtain ⟨ts, hg, hn, ht⟩ := hone
      obtain ⟨us, hg', hu, hc⟩ := ih q
      rw [synthesizeAll_cons_ok h]
      refine ⟨ts ++ us, hg.trans hg', fun t hm => ?_, fun created hr => ?_⟩
      · rcases List.mem_append.mp hm with hm | hm
        · exact ht t hm
        · exact (isSuiteTask_of_grows hg (hu t hm)).mono fun s hs => List.mem_cons_of_mem _ hs
      · obtain ⟨rest, hrest, rfl⟩ := except_map_ok hr
        rw [hn, hc rest hrest, List.map_append]

/-- Processing suites keeps earlier coverage tasks, even if it fails. -/
theorem continues_synthesizeAll (pass : CoveragePass) (suites : List String) (p : Project) :
    p.Continues (pass.synthesizeAll suites p).1 := by
  obtain ⟨ts, hg, _⟩ := pass.synthesizeAll_grows suites p
  exact Continues.of_grows hg

/-- All suites that are processed have their coverage tasks in the end. -/
theorem synthesizeAll_covers {suites created : List String}
    (h : (pass.synthesizeAll suites p).2 = .ok created) (hm : suite ∈ suites)
    (hs : suite ≠ defaultSuite) : Covers (pass.synthesizeAll suites p).1 suite := by
  induction suites generalizing p created with
  | nil => cases hm
  | cons first suites ih =>
    cases hf : pass.synthesize p first with
    | error fault =>
      rw [synthesizeAll_cons_error hf] at h
      cases h
    | ok r =>
      obtain ⟨q, new⟩ := r
      rw [synthesizeAll_cons_ok hf] at h ⊢
      obtain ⟨rest, hr, _⟩ := except_map_ok h
      rcases List.mem_cons.mp hm with rfl | hm
      · obtain ⟨_, _, _, hc, _⟩ := synthesize_ok hs hf
        exact hc.continues (pass.continues_synthesizeAll suites q)
      · exact ih hr hm

/-- A failure comes from one suite, and the suites before it were processed without one. -/
theorem synthesizeAll_error {suites : List String}
    (h : pass.synthesizeAll suites p = (q, .error fault)) :
    ∃ earlier suite later created, suites = earlier ++ suite :: later ∧
      pass.synthesizeAll earlier p = (q, .ok created) ∧ pass.synthesize q suite = .error fault := by
  induction suites generalizing p with
  | nil => cases congrArg Prod.snd h
  | cons first suites ih =>
    cases hf : pass.synthesize p first with
    | error why =>
      rw [synthesizeAll_cons_error hf] at h
      obtain ⟨rfl, hw⟩ := Prod.mk.inj h
      obtain rfl := Except.error.inj hw
      exact ⟨[], first, suites, [], rfl, rfl, hf⟩
    | ok r =>
      obtain ⟨m, new⟩ := r
      rw [synthesizeAll_cons_ok hf] at h
      obtain ⟨hq, hw⟩ := Prod.mk.inj h
      obtain ⟨earlier, suite, later, created, rfl, he, hs⟩ := ih (Prod.ext hq (except_map_error hw))
      refine ⟨first :: earlier, suite, later, new ++ created, rfl, ?_, hs⟩
      rw [synthesizeAll_cons_ok hf, he]
      rfl

/-- Processing the same suites a second time creates nothing, and fails as it did. -/
theorem synthesizeAll_synthesizeAll (pass : CoveragePass) (suites : List String) (p : Project) :
    pass.synthesizeAll suites (pass.synthesizeAll suites p).1 =
      ((pass.synthesizeAll suites p).1, (pass.synthesizeAll suites p).2.map fun _ => []) := by
  induction suites generalizing p with
  | nil => rfl
  | cons first suites ih =>
    cases hf : pass.synthesize p first with
    | error why =>
      rw [synthesizeAll_cons_error hf]
      exact synthesizeAll_cons_error hf
    | ok r =>
      obtain ⟨q, new⟩ := r
      rw [synthesizeAll_cons_ok hf]
      have hagain : pass.synthesize (pass.synthesizeAll suites q).1 first =
          .ok ((pass.synthesizeAll suites q).1, []) := by
        by_cases hs : first = defaultSuite
        · rw [hs, synthesize_defaultSuite]
        · obtain ⟨_, _, _, hc, _⟩ := synthesize_ok hs hf
          exact synthesize_of_covers (hc.continues (pass.continues_synthesizeAll suites q))
      rw [synthesizeAll_cons_ok hagain, ih q]
      cases (pass.synthesizeAll suites q).2 <;> rfl

/-- Suites whose names are free all get both tasks, in order. -/
theorem synthesizeAll_of_free {suites : List String} (hd : suites.Nodup)
    (hf : ∀ suite ∈ suites, suite ≠ defaultSuite ∧ (∃ inputs, suiteInputs p suite = .ok inputs) ∧
      ∀ name ∈ suiteTaskNames suite, p.task? name = none) :
    (pass.synthesizeAll suites p).2 = .ok (suites.flatMap suiteTaskNames) := by
  induction suites generalizing p with
  | nil => rfl
  | cons first suites ih =>
    obtain ⟨hnd, hd⟩ := List.nodup_cons.mp hd
    obtain ⟨hs, ⟨inputs, hi⟩, hfree⟩ := hf first (List.mem_cons_self ..)
    have hr : p.task? (reportTaskName first) = none := hfree _ (mem_suiteTaskNames.mpr (Or.inl rfl))
    have hv : p.task? (verificationTaskName first) = none :=
      hfree _ (mem_suiteTaskNames.mpr (Or.inr rfl))
    have hc : p.checkPair (reportTaskName first) (verificationTaskName first) first =
        .ok (false, false) :=
      checkPair_eq_ok_iff.mpr
        ⟨hasCoverageTask_eq_false_iff.mpr hr, hasCoverageTask_eq_false_iff.mpr hv⟩
    obtain ⟨q, hq, hg, _⟩ := pass.synthesize_of_checked hs hc hi rfl
    have hn : (p.absent (pass.suiteTasks p inputs)).map (·.name) = suiteTaskNames first := by
      rw [names_absent, names_suiteTasks, suite_of_suiteInputs hi, List.filter_eq_self]
      intro name hm
      simp [show p.tasks.contains name = false from TaskGraph.contains_eq_false_iff.mpr (hfree name hm)]
    rw [hn] at hq
    have hrest : (pass.synthesizeAll suites q).2 = .ok (suites.flatMap suiteTaskNames) := by
      refine ih hd fun suite hm => ?_
      obtain ⟨hs', ⟨inputs', hi'⟩, hfree'⟩ := hf suite (List.mem_cons_of_mem _ hm)
      refine ⟨hs', ⟨inputs', (suiteInputs_of_grows hg suite).trans hi'⟩, fun name hname => ?_⟩
      rw [hg.task?, hfree' name hname, Option.none_or, List.find?_eq_none]
      intro t ht he
      have hmem : t.name ∈ suiteTaskNames first := by
        rw [← hn]
        exact List.mem_map_of_mem ht
      rw [beq_iff_eq.mp he] at hmem
      exact hnd (suite_unique hmem hname ▸ hm)
    rw [synthesizeAll_cons_ok hq, hrest]
    rfl

end CoveragePass

end BuildGraph
