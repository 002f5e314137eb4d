import BuildGraph.Proofs.EnabledCoverage
import BuildGraph.Proofs.InternalFaults
import BuildGraph.Proofs.RepeatedPass

/-!
# All or nothing

Enabling coverage and processing a suite look at two names and then register two tasks, one after the
other. Both are carried out in place here, so that a task registered before a failure would stay. The
project is nevertheless as it was after every failure: whatever fails has failed before the first
registration. What is in the way is said exactly, in the order in which it is looked for.

The tasks may have been rewritten by hand. Nothing is said of a pass over several suites, which does keep
what it has done for the suites before the one that fails.
-/

namespace BuildGraph

namespace Project

/-! ## Changes in place -/

/-- A computation on a project that is changed in place. What has been changed before a failure stays
changed. -/
abbrev InPlace := EStateM ProjectFault Project

namespace InPlace

variable {α β : Type}

/-- Look at the project. -/
def look (f : Project → Except ProjectFault α) : InPlace α := fun p =>
  match f p with
  | .ok a => .ok a p
  | .error fault => .error fault p

/-- Change the project by a single step. -/
def step (f : Project → Except ProjectFault Project) : InPlace Unit := fun p =>
  match f p with
  | .ok q => .ok () q
  | .error fault => .error fault p

/-- Change the project all at once, or leave it as it is. -/
def atOnce (f : Project → Except ProjectFault (Project × α)) : InPlace α := fun p =>
  match f p with
  | .ok (q, a) => .ok a q
  | .error fault => .error fault p

variable {p q : Project} {fault : ProjectFault}

/-- After a success in place the next step works on the changed project. -/
theorem bind_of_ok {x : InPlace α} {a : α} (h : x p = .ok a q) (next : α → InPlace β) :
    (x >>= next) p = next a q := by
  change EStateM.bind x next p = _
  rw [EStateM.bind, h]

/-- A failure in place stops, with the project as it has been changed so far. -/
theorem bind_of_error {x : InPlace α} (h : x p = .error fault q) (next : α → InPlace β) :
    (x >>= next) p = .error fault q := by
  change EStateM.bind x next p = _
  rw [EStateM.bind, h]

/-- A look that succeeds leaves the project as it is. -/
theorem look_of_ok {f : Project → Except ProjectFault α} {a : α} (h : f p = .ok a) :
    look f p = .ok a p := by
  rw [look, h]

/-- A look that fails leaves the project as it is, too. -/
theorem look_of_error {f : Project → Except ProjectFault α} (h : f p = .error fault) :
    look f p = .error fault p := by
  rw [look, h]

/-- A single step that succeeds leaves the project that it computes. -/
theorem step_of_ok {f : Project → Except ProjectFault Project} (h : f p = .ok q) :
    step f p = .ok () q := by
  rw [step, h]

/-- All at once or nothing: a success leaves the final project. -/
theorem atOnce_of_ok {f : Project → Except ProjectFault (Project × α)} {a : α} (h : f p = .ok (q, a)) :
    atOnce f p = .ok a q := by
  rw [atOnce, h]

/-- All at once or nothing: a failure leaves the project as it was before the first step. -/
theorem atOnce_of_error {f : Project → Except ProjectFault (Project × α)} (h : f p = .error fault) :
    atOnce f p = .error fault p := by
  rw [atOnce, h]

end InPlace

open InPlace

variable {p q : Project} {report verification suite reportsDir : String} {fault : ProjectFault}

/-- Look whether two names are held by the report and the verification of a suite, one after the other. -/
def checkPairInPlace (report verification suite : String) : InPlace (Bool × Bool) := do
  let hasReport ← look (·.hasCoverageTask report .report suite)
  let hasVerification ← look (·.hasCoverageTask verification .verification suite)
  return (hasReport, hasVerification)

/-- Register those tasks of a pair that are not there, one after the other. -/
def registerPairInPlace (has : Bool × Bool) (report verification : Task) : InPlace Unit := do
  step (·.registerIf (!has.1) report)
  step (·.registerIf (!has.2) verification)

/-- Checks change nothing. -/
theorem checkPairInPlace_eq (report verification suite : String) :
    checkPairInPlace report verification suite = look (·.checkPair report verification suite) := by
  funext p
  cases hr : p.hasCoverageTask report .report suite with
  | error fault =>
    have hc : p.checkPair report verification suite = .error fault := by
      rw [checkPair, hr]
      rfl
    rw [look_of_error hc]
    exact bind_of_error (look_of_error hr) _
  | ok hasReport =>
    refine (bind_of_ok (look_of_ok hr) _).trans ?_
    cases hv : p.hasCoverageTask verification .verification suite with
    | error fault =>
      have hc : p.checkPair report verification suite = .error fault := by
        rw [checkPair, hr, hv]
        rfl
      rw [look_of_error hc]
      exact bind_of_error (look_of_error hv) _
    | ok hasVerification =>
      have hc : p.checkPair report verification suite = .ok (hasReport, hasVerification) :=
        checkPair_eq_ok_iff.mpr ⟨hr, hv⟩
      rw [look_of_ok hc]
      exact bind_of_ok (look_of_ok hv) _

/-- A pair whose registration cannot fail is registered in place just as at once. -/
theorem registerPairInPlace_of_ok {has : Bool × Bool} {report verification : Task}
    (h : p.registerPair has report verification = .ok q) :
    registerPairInPlace has report verification p = .ok () q := by
  obtain ⟨m, hm, hq⟩ := except_bind_ok h
  exact (bind_of_ok (step_of_ok hm) _).trans (step_of_ok hq)

/-! ## What is in the way of a pair -/

/-- Whether a name is held by anything but the coverage task of a kind for a suite. -/
def HeldByOther (p : Project) (name : String) (kind : CoverageKind) (suite : String) : Prop :=
  p.tasks.contains name ∧ ¬ p.Holds name kind suite

/-- What is in the way of a suite's report and verification; the report's name is looked at first. -/
inductive PairObstacle (p : Project) (report verification suite : String) : ProjectFault → Prop where
  | report (held : p.HeldByOther report .report suite) :
    PairObstacle p report verification suite (.duplicateTask p.path report)
  | verification (free : ¬ p.HeldByOther report .report suite)
    (held : p.HeldByOther verification .verification suite) :
    PairObstacle p report verification suite (.duplicateTask p.path verification)

/-- The look-up of a coverage task fails exactly if something else holds its name. -/
theorem hasCoverageTask_error_iff {name : String} {kind : CoverageKind} :
    p.hasCoverageTask name kind suite = .error fault ↔
      fault = .duplicateTask p.path name ∧ p.HeldByOther name kind suite :=
  hasCoverageTask_eq_error_iff

/-- Where the look-up answers, nothing else holds the name. -/
theorem not_heldByOther_of_ok {name : String} {kind : CoverageKind} {b : Bool}
    (h : p.hasCoverageTask name kind suite = .ok b) : ¬ p.HeldByOther name kind suite := by
  intro held
  cases h.symm.trans (hasCoverageTask_error_iff.mpr ⟨rfl, held⟩)

/-- The check of a pair fails at what is in the way. -/
theorem checkPair_error_iff :
    p.checkPair report verification suite = .error fault ↔
      p.PairObstacle report verification suite fault := by
  constructor
  · intro h
    rcases except_bind_error h with hr | ⟨hasReport, hr, h⟩
    · obtain ⟨rfl, held⟩ := hasCoverageTask_error_iff.mp hr
      exact .report held
    rcases except_bind_error h with hv | ⟨_, _, h⟩
    · obtain ⟨rfl, held⟩ := hasCoverageTask_error_iff.mp hv
      exact .verification (not_heldByOther_of_ok hr) held
    · cases h
  · rintro (held | ⟨free, held⟩)
    · rw [checkPair, hasCoverageTask_error_iff.mpr ⟨rfl, held⟩]
      rfl
    · cases hr : p.hasCoverageTask report .report suite with
      | error why => exact absurd (hasCoverageTask_error_iff.mp hr).2 free
      | ok hasReport =>
        rw [checkPair, hr, hasCoverageTask_error_iff.mpr ⟨rfl, held⟩]
        rfl

/-! ## Enabling coverage -/

/-- Enable coverage in place. -/
def enableCoverageInPlace (reportsDir : String) : InPlace Unit := do
  let p ← get
  if p.has .coverage then return
  if let some data := (p.suites.find? defaultSuite).bind (·.executionData) then
    let has ← checkPairInPlace defaultReportTask defaultVerificationTask defaultSuite
    registerPairInPlace has (hostReport reportsDir data) (hostVerification data)
  modify (·.withCoverage reportsDir)

/-- Coverage is enabled all at once. -/
theorem enableCoverageInPlace_eq (reportsDir : String) :
    enableCoverageInPlace reportsDir = atOnce fun p => (p.enableCoverage reportsDir).map (·, ()) := by
  funext p
  refine (bind_of_ok (x := get) (q := p) (a := p) rfl _).trans ?_
  cases hc : p.has .coverage with
  | true =>
    rw [atOnce_of_ok (q := p) (a := ()) (by rw [enableCoverage_of_has hc]; rfl)]
    rfl
  | false =>
    cases hd : (p.suites.find? defaultSuite).bind (·.executionData) with
    | none =>
      rw [atOnce, enableCoverage_of_not_has hc, registerHostTasks, hd]
      rfl
    | some data =>
      have henable : p.enableCoverage reportsDir =
          (p.registerDefaultCoverage reportsDir data).map (·.withCoverage reportsDir) := by
        rw [enableCoverage_of_not_has hc, registerHostTasks_of_data hd]
      rw [registerDefaultCoverage_eq] at henable
      rw [if_neg (by simp), checkPairInPlace_eq]
      cases hp : p.checkPair defaultReportTask defaultVerificationTask defaultSuite with
      | error fault =>
        rw [hp] at henable
        rw [atOnce_of_error (by rw [henable]; rfl)]
        exact bind_of_error (look_of_error hp) _
      | ok has =>
        -- From here on nothing fails, so it does not matter that the project changes.
        obtain ⟨m, hm, _⟩ := registerPair_host reportsDir data hp
        rw [hp] at henable
        change _ = (p.registerPair _ _ _).map _ at henable
        rw [hm] at henable
        rw [atOnce_of_ok (q := m.withCoverage reportsDir) (a := ()) (by rw [henable]; rfl)]
        refine (bind_of_ok (look_of_ok hp) _).trans ?_
        exact bind_of_ok (registerPairInPlace_of_ok hm) _

/-- The capability is never lost. -/
theorem has_coverage_run (operation : Operation) (hp : p.WellFormed) (hc : p.has .coverage) :
    (operation.run p).has .coverage := by
  by_cases hb : operation = .apply .coverage
  · subst hb
    exact (p.has_apply _ _).trans (by rw [decide_eq_true rfl, Bool.true_or])
  · rcases coverage_run hp hb with hk | hfull
    · exact hk.capability.trans hc
    · exact hfull.capability

/-- No run of operations takes the capability away. -/
theorem has_coverage_foldl_run (operations : List Operation) (hp : p.WellFormed) (hc : p.has .coverage) :
    (operations.foldl Operation.run p).has .coverage := by
  induction operations generalizing p with
  | nil => exact hc
  | cons operation operations ih =>
    exact ih (wellFormed_run operation hp) (has_coverage_run operation hp hc)

/-- Every project has a default suite with data, so enabling coverage fails exactly at the names of its
two tasks, and never for a project with the capability. -/
theorem enableCoverage_error_iff (hp : p.WellFormed) :
    p.enableCoverage reportsDir = .error fault ↔
      p.has .coverage = false ∧
        p.PairObstacle defaultReportTask defaultVerificationTask defaultSuite fault := by
  constructor
  · intro h
    refine ⟨?_, checkPair_error_iff.mp (checkPair_of_enableCoverage_error h)⟩
    by_contra hc
    rw [enableCoverage_of_has (by simpa using hc)] at h
    cases h
  · rintro ⟨hc, hobstacle⟩
    obtain ⟨s, data, hs, hdata⟩ := hp.default_data
    have hd : (p.suites.find? defaultSuite).bind (·.executionData) = some data := by
      rw [hs, Option.bind_some, hdata]
    rw [enableCoverage_of_not_has hc, registerHostTasks_of_data hd, registerDefaultCoverage_eq,
      checkPair_error_iff.mpr hobstacle]
    rfl

/-- What enabling coverage anew makes of a project. -/
structure Enabled (p q : Project) (reportsDir : String) : Prop where
  /-- Nothing changes but the settings, the capability and the tasks. -/
  rest : q = { p with
    tasks := q.tasks
    capabilities := p.capabilities.add .coverage
    coverage := some ⟨none, reportsDir⟩ }
  /-- The tasks stay as they are, and those of the default suite that were not there come behind them. -/
  tasks : ∃ ts, q.tasks.tasks = p.tasks.tasks ++ ts ∧
    ts.map (·.name) = hostTaskNames.filter fun name => !p.tasks.contains name
  holds : q.HoldsHostTasks

/-- Enabling coverage anew changes the settings, the capability and the tail of the tasks, and nothing
else. -/
theorem enabled_of_enableCoverage (hp : p.WellFormed) (hc : p.has .coverage = false)
    (h : p.enableCoverage reportsDir = .ok q) : p.Enabled q reportsDir := by
  obtain ⟨s, data, hs, hdata⟩ := hp.default_data
  have hd : (p.suites.find? defaultSuite).bind (·.executionData) = some data := by
    rw [hs, Option.bind_some, hdata]
  have hholds := enableCoverage_holds h hc hd
  obtain ⟨m, hg, hq⟩ := enableCoverage_ok h
  rw [hc, if_neg (by simp)] at hq
  refine ⟨?_, ⟨p.enabledTasks reportsDir, ?_, ?_⟩, hholds⟩
  · rw [hq, withCoverage, hg.rest]
  · rw [hq]
    exact hg.tasks
  · rw [enabledTasks, hc, if_neg (by simp), names_absent, hostTasks, hd]
    rfl

/-- Enabling coverage in place fails exactly if the project does not have the capability and another task
holds a name of the default suite's coverage tasks, and leaves the project as it is then. Otherwise the
default suite has its coverage tasks, and whatever is done later, enabling coverage changes nothing
more. -/
theorem enableCoverage_all_or_nothing (hp : p.Attainable) (reportsDir : String) :
    enableCoverageInPlace reportsDir p = atOnce (fun p => (p.enableCoverage reportsDir).map (·, ())) p ∧
    (∀ fault, p.enableCoverage reportsDir = .error fault ↔
      p.has .coverage = false ∧
        p.PairObstacle defaultReportTask defaultVerificationTask defaultSuite fault) ∧
    ∀ q, p.enableCoverage reportsDir = .ok q →
      (p.has .coverage → q = p) ∧ (p.has .coverage = false → p.Enabled q reportsDir) ∧
      ∀ (operations : List Operation) (other : String),
        (operations.foldl Operation.run q).enableCoverage other =
          .ok (operations.foldl Operation.run q) := by
  refine ⟨by rw [enableCoverageInPlace_eq], fun fault => enableCoverage_error_iff hp.wellFormed,
    fun q hq => ⟨fun hc => ?_, fun hc => enabled_of_enableCoverage hp.wellFormed hc hq,
      fun operations other => ?_⟩⟩
  · rw [enableCoverage_of_has hc] at hq
    exact (Except.ok.inj hq).symm
  · have hw := (continues_enableCoverage hq).wellFormed hp.wellFormed
    have hc := CoveragePass.has_coverage_of_enableCoverage hq
    exact enableCoverage_of_has (has_coverage_foldl_run operations hw hc)

/-- The sample with a suite that is called like the verification of the default suite. -/
def verifyingSample : Project := Operation.run sample (.addSuite "coverage-verification" none none)

/-- The report's name is free, the verification's is not: nothing is registered, while the same project
without the suite gets both tasks and keeps them. -/
theorem verifyingSample_unchanged :
    verifyingSample.Attainable ∧
      enableCoverageInPlace "reports" verifyingSample =
        .error (.duplicateTask ":model" "coverage-verification") verifyingSample ∧
      verifyingSample.PairObstacle defaultReportTask defaultVerificationTask defaultSuite
        (.duplicateTask ":model" "coverage-verification") ∧
      ∃ q, sample.enableCoverage "reports" = .ok q ∧ sample.Enabled q "reports" ∧
        q.enableCoverage "elsewhere" = .ok q := by
  have hp : verifyingSample.Attainable := .run (.addSuite _ _ _) reachable_sample.attainable
  have hf : verifyingSample.enableCoverage "reports" =
      .error (.duplicateTask ":model" "coverage-verification") := by decide
  obtain ⟨hplace, hiff, _⟩ := enableCoverage_all_or_nothing hp "reports"
  obtain ⟨_, _, hsample⟩ := enableCoverage_all_or_nothing reachable_sample.attainable "reports"
  rw [atOnce_of_error (by rw [hf]; rfl)] at hplace
  cases hq : sample.enableCoverage "reports" with
  | error fault =>
    have hok : (sample.enableCoverage "reports").isOk = true := by decide
    rw [hq] at hok
    cases hok
  | ok q =>
    obtain ⟨_, henabled, hlater⟩ := hsample q hq
    exact ⟨hp, hplace, ((hiff _).mp hf).2, q, rfl, henabled (by decide), hlater [] "elsewhere"⟩

end Project

namespace CoveragePass

open Project Project.InPlace

variable {pass : CoveragePass} {p q : Project} {suite : String} {fault : ProjectFault}

/-! ## Processing a suite -/

/-- A suite is covered if the check finds both of its tasks. -/
theorem covers_of_checkPair {has : Bool × Bool}
    (hc : p.checkPair (reportTaskName suite) (verificationTaskName suite) suite = .ok has)
    (hb : (has.1 && has.2) = true) : Covers p suite := by
  obtain ⟨hr, hv⟩ := Bool.and_eq_true_iff.mp hb
  exact checkPair_eq_true_iff.mp (hc.trans (congrArg Except.ok (Prod.ext hr hv)))

/-- Names are checked before the data of a suite is asked for. -/
theorem synthesize_of_checkPair_error (pass : CoveragePass) (hs : suite ≠ defaultSuite)
    (hc : p.checkPair (reportTaskName suite) (verificationTaskName suite) suite = .error fault) :
    pass.synthesize p suite = .error fault := by
  rw [synthesize_eq pass p hs, hc]
  rfl

/-- Inputs are looked up only if something is absent. -/
theorem synthesize_of_suiteInputs_error (pass : CoveragePass) {has : Bool × Bool}
    (hs : suite ≠ defaultSuite)
    (hc : p.checkPair (reportTaskName suite) (verificationTaskName suite) suite = .ok has)
    (hb : (has.1 && has.2) = false) (hi : suiteInputs p suite = .error fault) :
    pass.synthesize p suite = .error fault := by
  rw [synthesize_eq pass p hs, hc]
  simp only [bind, Except.bind, hb, hi]
  rfl

/-- Process a suite in place. -/
def synthesizeInPlace (pass : CoveragePass) (suite : String) : InPlace (List String) := do
  if suite = defaultSuite then return []
  let has ← checkPairInPlace (reportTaskName suite) (verificationTaskName suite) suite
  if has.1 && has.2 then return []
  let inputs ← look (suiteInputs · suite)
  let p ← get
  registerPairInPlace has (pass.reportTask inputs (pass.reportsRoot p)) (verificationTask inputs)
  return (if has.1 then [] else [reportTaskName suite]) ++
    (if has.2 then [] else [verificationTaskName suite])

/-- A suite is processed all at once. -/
theorem synthesizeInPlace_eq (pass : CoveragePass) (suite : String) :
    pass.synthesizeInPlace suite = atOnce (pass.synthesize · suite) := by
  funext p
  by_cases hs : suite = defaultSuite
  · rw [atOnce_of_ok (q := p) (a := []) (by rw [hs, synthesize_defaultSuite]), synthesizeInPlace, if_pos hs]
    rfl
  rw [synthesizeInPlace, if_neg hs, checkPairInPlace_eq]
  cases hc : p.checkPair (reportTaskName suite) (verificationTaskName suite) suite with
  | error fault =>
    rw [atOnce_of_error (pass.synthesize_of_checkPair_error hs hc)]
    exact bind_of_error (look_of_error hc) _
  | ok has =>
    refine (bind_of_ok (look_of_ok hc) _).trans ?_
    cases hb : has.1 && has.2 with
    | true =>
      rw [atOnce_of_ok (synthesize_of_covers (covers_of_checkPair hc hb)), if_pos rfl]
      rfl
    | false =>
      rw [if_neg (by simp)]
      cases hi : suiteInputs p suite with
      | error fault =>
        rw [atOnce_of_error (pass.synthesize_of_suiteInputs_error hs hc hb hi)]
        exact bind_of_error (look_of_error hi) _
      | ok inputs =>
        -- From here on nothing fails, so it does not matter that the project changes.
        obtain ⟨m, hm, _⟩ := pass.registerPair_suite hi hc
        obtain rfl := suite_of_suiteInputs hi
        refine (bind_of_ok (look_of_ok hi) _).trans ?_
        refine (bind_of_ok (x := get) (q := p) (a := p) rfl _).trans ?_
        refine (bind_of_ok (registerPairInPlace_of_ok hm) _).trans ?_
        rw [atOnce_of_ok (q := m)]
        · rfl
        · rw [synthesize_eq pass p hs, hc]
          simp only [bind, Except.bind, hb, hi, hm]
          rfl

/-- What is in the way of a suite: another holder of one of its names comes first, and only a suite that
lacks a task needs to be there with its data. -/
inductive SuiteObstacle (p : Project) (suite : String) : ProjectFault → Prop where
  | name {fault : ProjectFault}
    (held : p.PairObstacle (reportTaskName suite) (verificationTaskName suite) suite fault) :
    SuiteObstacle p suite fault
  | unknown (report : ¬ p.HeldByOther (reportTaskName suite) .report suite)
    (verification : ¬ p.HeldByOther (verificationTaskName suite) .verification suite)
    (absent : ∃ name ∈ suiteTaskNames suite, p.task? name = none)
    (suites : p.suites.find? suite = none) :
    SuiteObstacle p suite (.unknownSuite p.path suite)
  | incomplete {s : TestSuite} (report : ¬ p.HeldByOther (reportTaskName suite) .report suite)
    (verification : ¬ p.HeldByOther (verificationTaskName suite) .verification suite)
    (absent : ∃ name ∈ suiteTaskNames suite, p.task? name = none)
    (suites : p.suites.find? suite = some s) (data : s.executionData = none) :
    SuiteObstacle p suite (.incompleteSuite p.path suite)

/-- A pair that can be checked has no other holder of its names. -/
theorem checkPair_ok_iff {report verification : String} :
    (∃ has, p.checkPair report verification suite = .ok has) ↔
      ¬ p.HeldByOther report .report suite ∧ ¬ p.HeldByOther verification .verification suite := by
  constructor
  · rintro ⟨has, hc⟩
    obtain ⟨hr, hv⟩ := checkPair_eq_ok_iff.mp hc
    exact ⟨not_heldByOther_of_ok hr, not_heldByOther_of_ok hv⟩
  · rintro ⟨hr, hv⟩
    cases hc : p.checkPair report verification suite with
    | ok has => exact ⟨has, rfl⟩
    | error fault =>
      rcases checkPair_error_iff.mp hc with held | ⟨_, held⟩
      · exact absurd held hr
      · exact absurd held hv

/-- Something of a pair is absent exactly if the check does not find both. -/
theorem absent_iff_of_checkPair {has : Bool × Bool}
    (hc : p.checkPair (reportTaskName suite) (verificationTaskName suite) suite = .ok has) :
    (∃ name ∈ suiteTaskNames suite, p.task? name = none) ↔ (has.1 && has.2) = false := by
  obtain ⟨hr, hv⟩ := checkPair_eq_ok_iff.mp hc
  have hfree : ∀ {name : String} {b : Bool}, p.tasks.contains name = b →
      (p.task? name = none ↔ b = false) := by
    rintro name _ rfl
    exact TaskGraph.contains_eq_false_iff.symm
  simp only [mem_suiteTaskNames, exists_eq_or_imp, exists_eq_left]
  rw [hfree (contains_of_hasCoverageTask hr), hfree (contains_of_hasCoverageTask hv),
    Bool.and_eq_false_iff]

/-- Processing a suite fails at the check, or for want of inputs if something is absent. -/
theorem synthesize_error_iff (hs : suite ≠ defaultSuite) :
    pass.synthesize p suite = .error fault ↔
      p.checkPair (reportTaskName suite) (verificationTaskName suite) suite = .error fault ∨
        ∃ has, p.checkPair (reportTaskName suite) (verificationTaskName suite) suite = .ok has ∧
          (has.1 && has.2) = false ∧ suiteInputs p suite = .error fault := by
  cases hc : p.checkPair (reportTaskName suite) (verificationTaskName suite) suite with
  | error why =>
    rw [pass.synthesize_of_checkPair_error hs hc]
    simp
  | ok has =>
    cases hb : has.1 && has.2 with
    | true =>
      rw [synthesize_of_covers (covers_of_checkPair hc hb)]
      constructor
      · intro h
        cases h
      · rintro (h | ⟨found, h, hnot, _⟩)
        · cases h
        · obtain rfl := Except.ok.inj h
          cases hb.symm.trans hnot
    | false =>
      cases hi : suiteInputs p suite with
      | error why =>
        rw [pass.synthesize_of_suiteInputs_error hs hc hb hi]
        constructor
        · exact fun h => Or.inr ⟨has, rfl, hb, congrArg Except.error (Except.error.inj h)⟩
        · rintro (h | ⟨_, _, _, h⟩)
          · cases h
          · exact congrArg Except.error (Except.error.inj h)
      | ok inputs =>
        obtain ⟨q, hq, _⟩ := pass.synthesize_of_checked hs hc hi hb
        rw [hq]
        simp

/-- Processing a suite fails exactly at the first thing in its way. -/
theorem synthesize_error_iff_obstacle (hp : p.WellFormed) (hs : suite ≠ defaultSuite) :
    pass.synthesize p suite = .error fault ↔ SuiteObstacle p suite fault := by
  rw [synthesize_error_iff hs]
  constructor
  · rintro (hc | ⟨has, hc, hb, hi⟩)
    · exact .name (checkPair_error_iff.mp hc)
    obtain ⟨hr, hv⟩ := checkPair_ok_iff.mp ⟨has, hc⟩
    have habsent := (absent_iff_of_checkPair hc).mpr hb
    rcases suiteInputs_error hi with ⟨rfl, hnone⟩ | ⟨rfl, s, hfound, hdata⟩ | ⟨_, hmain⟩
    · exact .unknown hr hv habsent hnone
    · exact .incomplete hr hv habsent hfound hdata
    · cases hp.main.symm.trans hmain
  · rintro (held | ⟨hr, hv, habsent, hnone⟩ | ⟨hr, hv, habsent, hfound, hdata⟩)
    · exact Or.inl (checkPair_error_iff.mpr held)
    · obtain ⟨has, hc⟩ := checkPair_ok_iff.mpr ⟨hr, hv⟩
      refine Or.inr ⟨has, hc, (absent_iff_of_checkPair hc).mp habsent, ?_⟩
      rw [suiteInputs, hnone]
    · obtain ⟨has, hc⟩ := checkPair_ok_iff.mpr ⟨hr, hv⟩
      refine Or.inr ⟨has, hc, (absent_iff_of_checkPair hc).mp habsent, ?_⟩
      simp only [suiteInputs, hfound, hdata]

/-- Whether a task is the coverage task that its name says, for a suite with given data. -/
def BoundTo (t : Task) (suite : String) (data : ExecutionData) : Prop :=
  (t.name = reportTaskName suite ∧
    ∃ r, t.action = .report r ∧ r.inputs = ⟨suite, data, mainSourceSet⟩) ∨
  (t.name = verificationTaskName suite ∧ t.action = .verification ⟨suite, data, mainSourceSet⟩)

/-- What processing a suite makes of a project. -/
structure Synthesized (p q : Project) (suite : String) (created : List String) : Prop where
  /-- Exactly those names are reported that were free, that of the report first. -/
  names : created = (suiteTaskNames suite).filter fun name => !p.tasks.contains name
  /-- Tasks of these names come behind the others, and nothing else changes. -/
  grows : ∃ ts, p.Grows q ts ∧ ts.map (·.name) = created ∧
    ∀ t ∈ ts, ∃ s data, p.suites.find? suite = some s ∧ s.executionData = some data ∧
      BoundTo t suite data
  covers : Covers q suite

/-- The tasks that are made for a suite evaluate its own data. -/
theorem boundTo_of_mem_suiteTasks {data : ExecutionData} {t : Task}
    (ht : t ∈ (pass.suiteTasks p ⟨suite, data, mainSourceSet⟩).map p.conform) :
    BoundTo t suite data := by
  obtain ⟨u, hu, rfl⟩ := List.mem_map.mp ht
  rcases List.mem_pair.mp hu with rfl | rfl
  · refine Or.inl ⟨name_conform .., ?_⟩
    unfold conform
    split <;> exact ⟨_, rfl, rfl⟩
  · refine Or.inr ⟨name_conform .., ?_⟩
    unfold conform
    split <;> rfl

/-- The tasks that are created are those whose names were free. -/
theorem created_of_synthesize {created : List String} (hs : suite ≠ defaultSuite)
    (h : pass.synthesize p suite = .ok (q, created)) :
    created = (suiteTaskNames suite).filter fun name => !p.tasks.contains name := by
  have hfails : ∀ fault, pass.synthesize p suite ≠ .error fault := by
    intro fault hf
    cases h.symm.trans hf
  cases hc : p.checkPair (reportTaskName suite) (verificationTaskName suite) suite with
  | error fault => exact absurd ((synthesize_error_iff hs).mpr (Or.inl hc)) (hfails fault)
  | ok has =>
    cases hb : has.1 && has.2 with
    | true =>
      have hcovers := covers_of_checkPair hc hb
      rw [synthesize_of_covers hcovers] at h
      obtain ⟨_, rfl⟩ := Prod.mk.inj (Except.ok.inj h)
      simp [suiteTaskNames, hcovers.report.contains, hcovers.verification.contains]
    | false =>
      cases hi : suiteInputs p suite with
      | error fault =>
        exact absurd ((synthesize_error_iff hs).mpr (Or.inr ⟨has, hc, hb, hi⟩)) (hfails fault)
      | ok inputs =>
        obtain ⟨m, hm, _⟩ := pass.synthesize_of_checked hs hc hi hb
        obtain ⟨_, rfl⟩ := Prod.mk.inj (Except.ok.inj (hm.symm.trans h))
        rw [names_absent, names_suiteTasks, suite_of_suiteInputs hi]

/-- A processed suite has both tasks, and all that has changed are tasks behind the earlier ones. -/
theorem synthesized_of_synthesize {created : List String} (hs : suite ≠ defaultSuite)
    (h : pass.synthesize p suite = .ok (q, created)) : Synthesized p q suite created := by
  obtain ⟨ts, hg, hn, hcovers, hts⟩ := synthesize_ok hs h
  refine ⟨created_of_synthesize hs h, ⟨ts, hg, hn.symm, fun t ht => ?_⟩, hcovers⟩
  obtain ⟨inputs, hi, ht⟩ := hts t ht
  obtain ⟨s, data, hfound, hdata, _, rfl⟩ := suiteInputs_ok hi
  exact ⟨s, data, hfound, hdata, boundTo_of_mem_suiteTasks ht⟩

/-- Processing a suite in place fails exactly if something is in its way, and leaves the project as it is
then. Otherwise exactly those of its two tasks that were absent come behind the others, the report first,
for the suite's own data, and nothing else changes. -/
theorem synthesize_all_or_nothing (hp : p.Attainable) (pass : CoveragePass) (hs : suite ≠ defaultSuite) :
    pass.synthesizeInPlace suite p = atOnce (pass.synthesize · suite) p ∧
    (∀ fault, pass.synthesize p suite = .error fault ↔ SuiteObstacle p suite fault) ∧
    ∀ q created, pass.synthesize p suite = .ok (q, created) → Synthesized p q suite created :=
  ⟨by rw [synthesizeInPlace_eq], fun _ => synthesize_error_iff_obstacle hp.wellFormed hs,
    fun _ _ => synthesized_of_synthesize hs⟩

/-- The sample with a task in the way of its suite's verification; the name of the report is free. -/
def refusedSample : Project :=
  Operation.run Project.sample (.register { name := "coverage-verification-slow", action := .compile })

/-- The name of the report is free, that of the verification is taken: the report is not registered
either, while without the obstacle both tasks come. -/
theorem refusedSample_unchanged :
    refusedSample.Attainable ∧ "slow" ≠ defaultSuite ∧
      sample.synthesizeInPlace "slow" refusedSample =
        .error (.duplicateTask ":model" "coverage-verification-slow") refusedSample ∧
      SuiteObstacle refusedSample "slow" (.duplicateTask ":model" "coverage-verification-slow") ∧
      ∃ q, Synthesized Project.sample q "slow" ["coverage-report-slow", "coverage-verification-slow"] := by
  have hp : refusedSample.Attainable := .run (.register _) reachable_sample.attainable
  have hs : "slow" ≠ defaultSuite := by decide
  have hf : sample.synthesize refusedSample "slow" =
      .error (.duplicateTask ":model" "coverage-verification-slow") := by decide
  obtain ⟨hplace, hiff, _⟩ := synthesize_all_or_nothing hp sample hs
  obtain ⟨_, _, hsample⟩ := synthesize_all_or_nothing reachable_sample.attainable sample hs
  rw [atOnce_of_error hf] at hplace
  have hok : ((sample.synthesize Project.sample "slow").toOption.map (·.2)) =
      some ["coverage-report-slow", "coverage-verification-slow"] := by decide
  cases hq : sample.synthesize Project.sample "slow" with
  | error fault =>
    rw [hq] at hok
    cases hok
  | ok r =>
    rw [hq] at hok
    obtain ⟨q, created⟩ := r
    obtain rfl : created = _ := Option.some.inj hok
    exact ⟨hp, hs, hplace, (hiff _).mp hf, q, hsample q _ hq⟩

end CoveragePass

end BuildGraph
