import BuildGraph.Proofs.FirstPass
import BuildGraph.Proofs.PassTasks
import BuildGraph.Proofs.RepeatedPass

/-!
# The phases of a pass

A pass in progress is described in three phases. Each is relative to the project as it was without any
coverage work, so it does not matter how much of the work an earlier pass has done already: a pass that
gets through always ends with the same look-ups, and what it needs to get through is said of that bare
project.
-/

namespace BuildGraph

namespace Project

/-- Whether no coverage work has been done on a project, except that it may have the capability. -/
structure Bare (p : Project) : Prop where
  wellFormed : p.WellFormed
  outline : ∀ {name t}, p.task? name = some t → t.outline? = none
  coverage : p.coverage = none
  convention : p.convention = none

end Project

namespace CoveragePass

open Project

variable {pass : CoveragePass} {p q a b r : Project} {version suite : String} {t : Task}

/-! ## The phases -/

/-- Whether `q` is `p` with coverage enabled and with some of the tasks that a pass registers. -/
structure Underway (pass : CoveragePass) (version : String) (p q : Project) : Prop where
  pinned : pass.catalog.version pass.toolVersionKey = .ok version
  rest : q = { p with
    tasks := q.tasks
    capabilities := (p.capabilities.add .coverage).add .coverageAggregation
    coverage := if p.has .coverage then none else some ⟨some version, pass.reportsHome p⟩
    convention := some pass.convention }
  /-- Each task of `p` is there and settles as it would in `p`. -/
  kept : ∀ {name t}, p.task? name = some t →
    ∃ u, q.task? name = some u ∧ pass.settle p u = pass.settle p t
  /-- All other tasks are ones that the pass registers. -/
  gained : ∀ {name t}, p.task? name = none → q.task? name = some t → pass.Registers p t
  host : p.has .coverage = false → q.HoldsHostTasks

/-- Whether all tasks are settled as well. -/
structure Adjusted (pass : CoveragePass) (version : String) (p q : Project) : Prop
    extends Underway pass version p q where
  settled : ∀ {name t}, q.task? name = some t → pass.settle p t = t

/-- Whether all suites are covered as well. -/
structure Finished (pass : CoveragePass) (version : String) (p q : Project) : Prop
    extends Adjusted pass version p q where
  covers : ∀ {suite}, p.suites.contains suite → suite ≠ defaultSuite → Covers q suite

namespace Underway

theorem path (h : pass.Underway version p q) : q.path = p.path := by rw [h.rest]

theorem suites (h : pass.Underway version p q) : q.suites = p.suites := by rw [h.rest]

theorem sourceSets (h : pass.Underway version p q) : q.sourceSets = p.sourceSets := by rw [h.rest]

/-- From activation on the project follows the convention of the pass. -/
theorem convention (h : pass.Underway version p q) : q.convention = some pass.convention := by
  rw [h.rest]

theorem capabilities (h : pass.Underway version p q) :
    q.capabilities = (p.capabilities.add .coverage).add .coverageAggregation := by rw [h.rest]

/-- The settings are made by the pass, unless somebody had granted the capability without them. -/
theorem coverage (h : pass.Underway version p q) :
    q.coverage = if p.has .coverage then none else some ⟨some version, pass.reportsHome p⟩ := by
  rw [h.rest]

/-- Of capabilities a pass grants coverage and its aggregation, and no other. -/
theorem has_eq (h : pass.Underway version p q) (c : Capability) :
    q.has c = (decide (c = .coverageAggregation) || (decide (c = .coverage) || p.has c)) := by
  rw [has, h.capabilities, SortedSet.contains_add, SortedSet.contains_add, has]

/-- A pass leaves the toolchains of a project as they are. -/
theorem toolchains (h : pass.Underway version p q) : q.toolchains = p.toolchains := by
  have hone : ({ p with capabilities := p.capabilities.add .coverage } : Project).toolchains =
      p.toolchains := toolchains_add (c := .coverage) nofun rfl
  exact (toolchains_add (c := .coverageAggregation) nofun h.capabilities).trans hone

/-- Reports go to the same place throughout a pass. -/
theorem reportsRoot (h : pass.Underway version p q) : pass.reportsRoot q = pass.reportsHome p := by
  have hdir : q.buildDir = p.buildDir := by rw [h.rest]
  rw [CoveragePass.reportsRoot, h.coverage]
  cases p.has .coverage with
  | true => exact congrArg (Path.join · pass.reportsDir) hdir
  | false => rfl

/-- The inputs of suites stay the same throughout a pass. -/
theorem suiteInputs (h : pass.Underway version p q) (suite : String) :
    CoveragePass.suiteInputs q suite = CoveragePass.suiteInputs p suite := by
  rw [h.rest]
  rfl

/-- A pass removes no task. -/
theorem contains (h : pass.Underway version p q) {name : String} (hc : p.tasks.contains name) :
    q.tasks.contains name := by
  rw [TaskGraph.contains_eq_isSome_get?] at hc ⊢
  obtain ⟨t, ht⟩ := Option.isSome_iff_exists.mp hc
  obtain ⟨u, hu, _⟩ := h.kept ht
  exact Option.isSome_of_eq_some hu

/-- A project stays in shape throughout a pass. -/
theorem wellFormed (h : pass.Underway version p q) (hp : p.WellFormed) : q.WellFormed where
  suite_name := by rw [h.suites]; exact hp.suite_name
  default_data := by rw [h.suites]; exact hp.default_data
  main := by rw [h.sourceSets]; exact hp.main
  classes := h.contains hp.classes
  generated t ht := by
    rw [h.has_eq] at ht
    exact h.contains (hp.generated t (by simpa using ht))

/-- The suites to process are known before the pass starts. -/
theorem derivedSuites (h : pass.Underway version p q) : q.derivedSuites = p.derivedSuites := by
  rw [Project.derivedSuites, h.suites, Project.derivedSuites]

/-- A bare project has no coverage tasks, so whatever coverage tasks there are have been gained. -/
theorem free_of_holds (h : pass.Underway version p q) (hp : Bare p) {name : String}
    {kind : CoverageKind} (hh : q.Holds name kind suite) : p.task? name = none := by
  obtain ⟨t, ht, hs⟩ := hh
  cases hf : p.task? name with
  | none => rfl
  | some u =>
    obtain ⟨v, hv, hsettle⟩ := h.kept hf
    obtain rfl : t = v := Option.some.inj (ht.symm.trans hv)
    obtain ⟨o, ho, _⟩ := Task.suiteFor?_eq_some_iff.mp hs
    rw [← outline?_settle pass p t, hsettle, outline?_settle, hp.outline hf] at ho
    cases ho

/-- What comes to stand under a free name is something that the pass registers. -/
theorem task?_of_name (h : pass.Underway version p q) {name : String} (hf : p.task? name = none)
    (ht : q.task? name = some t) : pass.Registers p t ∧ t.name = name :=
  ⟨h.gained hf ht, TaskGraph.name_of_get? ht⟩

end Underway

/-! ## Enabling coverage -/

/-- What comes after enabling coverage only makes report tasks follow the convention. -/
theorem task?_finishActivation (pass : CoveragePass) (p : Project) (version name : String) :
    (pass.finishActivation p version).task? name =
      (p.task? name).map (·.followConvention pass.convention) := by
  refine (TaskGraph.get?_mapTasks p.tasks _ name).trans ?_
  exact congrArg (Option.map · (p.tasks.get? name)) (funext fun t => Task.keepName_followConvention t _)

/-- A pass begins a bare project by registering the default suite's coverage tasks. -/
theorem Underway.of_activate (hp : Bare p) (h : pass.activate p = .ok a) :
    ∃ version, pass.Underway version p a := by
  have hhost := fun hc => holdsHostTasks_of_activate hp.wellFormed hc h
  obtain ⟨version, m, hv, hm, rfl⟩ := activate_ok h
  have hm : p.enableCoverage (pass.reportsHome p) = .ok m := hm
  obtain ⟨n, hg, rfl⟩ := enableCoverage_ok hm
  have htask : ∀ name, (pass.finishActivation
      (if p.has .coverage then n else n.withCoverage (pass.reportsHome p)) version).task? name =
      (n.task? name).map (·.followConvention pass.convention) := by
    intro name
    rw [task?_finishActivation]
    split <;> rfl
  refine ⟨version, {
    pinned := hv
    rest := ?rest
    kept := fun {name t} ht => ?kept
    gained := fun {name t} hf ht => ?gained
    host := hhost }⟩
  case rest =>
    rw [hg.rest]
    cases hc : p.has .coverage with
    | true =>
      have hcap : p.capabilities.add .coverage = p.capabilities := SortedSet.add_of_contains hc
      rw [hcap]
      simp only [finishActivation, apply, configureReports, pinToolVersion, hp.coverage, if_true,
        Option.map_none]
    | false => rfl
  case kept =>
    refine ⟨t.followConvention pass.convention, ?_, ?_⟩
    · rw [htask, hg.task?, ht, Option.some_or, Option.map_some]
    · rw [settle, Task.followConvention_followConvention, settle]
  case gained =>
    rw [htask, hg.task?, hf, Option.none_or] at ht
    obtain ⟨u, hu, rfl⟩ := Option.map_eq_some_iff.mp ht
    have hu := List.mem_of_find?_eq_some hu
    unfold enabledTasks at hu
    split at hu
    · cases hu
    · rename_i hc
      obtain ⟨w, hw, rfl⟩ := List.mem_map.mp hu
      -- A bare project has no convention that would change what is registered.
      have hconform : p.conform w = w := by rw [conform, hp.convention]
      rw [hconform]
      exact .host (by simpa using hc) (List.mem_of_mem_filter hw)

/-- A pass that goes on with a project has nothing new to enable. -/
theorem Underway.activate (h : pass.Underway version p q) (ha : pass.activate q = .ok a) :
    pass.Underway version p a := by
  have hcov : q.has .coverage := by
    rw [h.has_eq, decide_eq_true rfl, Bool.true_or, Bool.or_true]
  have hagg : q.has .coverageAggregation := by
    rw [h.has_eq, decide_eq_true rfl, Bool.true_or]
  have hact := activate_of_enableCoverage h.pinned (enableCoverage_of_has hcov)
  obtain rfl := Except.ok.inj (hact.symm.trans ha)
  refine {
    pinned := h.pinned
    rest := ?rest
    kept := fun {name t} ht => ?kept
    gained := fun {name t} hf ht => ?gained
    host := fun hc => (h.host hc).continues (pass.continues_finishActivation q version) }
  case rest =>
    have hcap : q.capabilities.add .coverageAggregation = q.capabilities :=
      SortedSet.add_of_contains hagg
    have hext : (q.coverage.map fun c => { c with toolVersion := some version }) = q.coverage := by
      rw [h.coverage]
      split <;> rfl
    have hq : pass.finishActivation q version = { q with
        tasks := (pass.finishActivation q version).tasks
        capabilities := q.capabilities.add .coverageAggregation
        coverage := q.coverage.map fun c => { c with toolVersion := some version }
        convention := some pass.convention } := rfl
    rw [hq, hcap, hext, h.rest]
  case kept =>
    obtain ⟨u, hu, hsettle⟩ := h.kept ht
    refine ⟨u.followConvention pass.convention, ?_, ?_⟩
    · rw [task?_finishActivation, hu, Option.map_some]
    · rw [settle, Task.followConvention_followConvention]
      exact hsettle
  case gained =>
    rw [task?_finishActivation] at ht
    obtain ⟨u, hu, rfl⟩ := Option.map_eq_some_iff.mp ht
    have hr := h.gained hf hu
    rwa [hr.follows]

/-! ## Adjusting -/

/-- Once report tasks follow the convention, adjusting settles all tasks. -/
theorem Underway.adjusted (h : pass.Underway version p a)
    (hfollows : ∀ t ∈ a.tasks.tasks, t.followConvention pass.convention = t) :
    pass.Adjusted version p (Toolchain.adjusted a.toolchains a) := by
  have htask : ∀ name, (Toolchain.adjusted a.toolchains a).task? name =
      (a.task? name).map (Toolchain.adjustTask p.toolchains) := by
    intro name
    rw [h.toolchains]
    refine (TaskGraph.get?_mapTasks a.tasks _ name).trans ?_
    exact congrArg (Option.map · (a.tasks.get? name))
      (funext fun t => Toolchain.keepName_adjustTask p.toolchains t)
  have hsettle : ∀ {name t}, a.task? name = some t →
      Toolchain.adjustTask p.toolchains t = pass.settle p t := by
    intro name t ht
    have hm := (TaskGraph.get?_eq_some_iff.mp ht).1
    rw [settle_of_follows p (hfollows t hm)]
  refine {
    pinned := h.pinned
    rest := ?rest
    kept := fun {name t} ht => ?kept
    gained := fun {name t} hf ht => ?gained
    host := fun hc => (h.host hc).continues (Toolchain.continues_adjusted _ a)
    settled := fun {name t} ht => ?settled }
  case rest =>
    rw [h.rest]
    rfl
  case kept =>
    obtain ⟨u, hu, hs⟩ := h.kept ht
    refine ⟨pass.settle p u, ?_, ?_⟩
    · rw [htask, hu, Option.map_some, hsettle hu]
    · rw [settle_settle, hs]
  case gained =>
    rw [htask] at ht
    obtain ⟨u, hu, rfl⟩ := Option.map_eq_some_iff.mp ht
    have hr := h.gained hf hu
    rwa [hsettle hu, hr.settle_eq]
  case settled =>
    rw [htask] at ht
    obtain ⟨u, hu, rfl⟩ := Option.map_eq_some_iff.mp ht
    rw [hsettle hu, settle_settle]

/-! ## Covering suites -/

/-- What a pass registers for suites of the project in hand is what it registers for the bare one. -/
theorem Underway.registers_of_isSuiteTask (h : pass.Underway version p q) {suites : List String}
    (hs : ∀ suite ∈ suites, p.suites.contains suite) (ht : pass.IsSuiteTask q suites t) :
    pass.Registers p t := by
  obtain ⟨suite, hm, hd, inputs, hi, ht⟩ := ht
  obtain ⟨u, hu, rfl⟩ := List.mem_map.mp ht
  rw [h.suiteInputs] at hi
  rw [suiteTasks, h.reportsRoot] at hu
  have hconform : q.conform u = u := by
    rw [conform, h.convention]
    exact follows_of_mem_suiteTasks hu
  rw [hconform]
  exact .suite (hs suite hm) hd hi hu

/-- Processing suites keeps a project adjusted. -/
theorem Adjusted.synthesizeAll (h : pass.Adjusted version p b) {suites : List String}
    (hs : ∀ suite ∈ suites, p.suites.contains suite) :
    pass.Adjusted version p (pass.synthesizeAll suites b).1 := by
  obtain ⟨ts, hg, hts, _⟩ := pass.synthesizeAll_grows suites b
  have hnew : ∀ {t}, t ∈ ts → pass.Registers p t := fun ht =>
    h.registers_of_isSuiteTask hs (hts _ ht)
  have hmem : ∀ {name t}, (pass.synthesizeAll suites b).1.task? name = some t →
      b.task? name = some t ∨ t ∈ ts := by
    intro name t ht
    rw [hg.task?] at ht
    rcases Option.or_eq_some_iff.mp ht with ht | ⟨_, ht⟩
    · exact Or.inl ht
    · exact Or.inr (List.mem_of_find?_eq_some ht)
  refine {
    pinned := h.pinned
    rest := ?rest
    kept := fun {name t} ht => ?kept
    gained := fun {name t} hf ht => ?gained
    host := fun hc => (h.host hc).continues (.of_grows hg)
    settled := fun {name t} ht => ?settled }
  case rest => rw [hg.rest, h.rest]
  case kept =>
    obtain ⟨u, hu, hsettle⟩ := h.kept ht
    exact ⟨u, by rw [hg.task?, hu, Option.some_or], hsettle⟩
  case gained =>
    rcases hmem ht with ht | ht
    · exact h.gained hf ht
    · exact hnew ht
  case settled =>
    rcases hmem ht with ht | ht
    · exact h.settled ht
    · exact (hnew ht).settle_eq

/-- A suite whose names are in no other task's way and whose inputs are there is processed. -/
theorem synthesize_of_suiteFor? (pass : CoveragePass) {inputs : CoverageInputs}
    (hr : ∀ t, p.task? (reportTaskName suite) = some t → t.suiteFor? .report = some suite)
    (hv : ∀ t, p.task? (verificationTaskName suite) = some t → t.suiteFor? .verification = some suite)
    (hi : suiteInputs p suite = .ok inputs) : ∃ r, pass.synthesize p suite = .ok r := by
  have hchecked : ∀ {name : String} {kind : CoverageKind},
      (∀ t, p.task? name = some t → t.suiteFor? kind = some suite) →
      ∃ found, p.hasCoverageTask name kind suite = .ok found := by
    intro name kind h
    cases hf : p.task? name with
    | none => exact ⟨false, hasCoverageTask_eq_false_iff.mpr hf⟩
    | some t => exact ⟨true, hasCoverageTask_eq_true_iff.mpr ⟨t, hf, h t hf⟩⟩
  by_cases hd : suite = defaultSuite
  · exact ⟨_, by rw [hd, synthesize_defaultSuite]⟩
  obtain ⟨hasReport, hr⟩ := hchecked hr
  obtain ⟨hasVerification, hv⟩ := hchecked hv
  have hc : p.checkPair (reportTaskName suite) (verificationTaskName suite) suite =
      .ok (hasReport, hasVerification) := checkPair_eq_ok_iff.mpr ⟨hr, hv⟩
  cases hb : hasReport && hasVerification with
  | true =>
    obtain ⟨rfl, rfl⟩ := Bool.and_eq_true_iff.mp hb
    exact ⟨_, synthesize_of_covers (checkPair_eq_true_iff.mp hc)⟩
  | false =>
    obtain ⟨q, hq, _⟩ := pass.synthesize_of_checked hd hc hi hb
    exact ⟨_, hq⟩

/-! ## When a pass gets through -/

/-- What a pass needs of a bare project. -/
structure Ready (pass : CoveragePass) (p : Project) : Prop where
  version : ∃ version, pass.catalog.version pass.toolVersionKey = .ok version
  host : p.has .coverage = false → ∀ name ∈ hostTaskNames, p.task? name = none
  free : ∀ {suite}, p.suites.contains suite → suite ≠ defaultSuite →
    ∀ name ∈ suiteTaskNames suite, p.task? name = none
  inputs : ∀ {suite}, p.suites.contains suite → suite ≠ defaultSuite →
    ∃ inputs, suiteInputs p suite = .ok inputs

/-- The tasks that a pass registers have free names. -/
theorem Ready.task?_eq_none (h : pass.Ready p) (ht : pass.Registers p t) : p.task? t.name = none := by
  rcases ht.name with ⟨hc, hn⟩ | ⟨suite, _, hs, hd, _, hn⟩
  · exact h.host hc _ hn
  · exact h.free hs hd _ hn

/-- A suite of a project that meets the needs of a pass is processed. -/
theorem Adjusted.synthesize (h : pass.Adjusted version p b) (hr : pass.Ready p)
    (hs : p.suites.contains suite) (hd : suite ≠ defaultSuite) : ∃ r, pass.synthesize b suite = .ok r := by
  obtain ⟨inputs, hi⟩ := hr.inputs hs hd
  rw [← h.suiteInputs] at hi
  refine pass.synthesize_of_suiteFor? (fun t ht => ?_) (fun t ht => ?_) hi
  · have hf := hr.free hs hd _ (mem_suiteTaskNames.mpr (Or.inl rfl))
    obtain ⟨hreg, hn⟩ := h.task?_of_name hf ht
    exact hreg.suiteFor?_report hn
  · have hf := hr.free hs hd _ (mem_suiteTaskNames.mpr (Or.inr rfl))
    obtain ⟨hreg, hn⟩ := h.task?_of_name hf ht
    exact hreg.suiteFor?_verification hn

/-- Where a pass got through, its needs were met. -/
theorem Finished.ready (h : pass.Finished version p q) (hp : Bare p) : pass.Ready p where
  version := ⟨version, h.pinned⟩
  host hc name hn := by
    have hhost := h.host hc
    rcases List.mem_pair.mp hn with rfl | rfl
    · exact h.free_of_holds hp hhost.report
    · exact h.free_of_holds hp hhost.verification
  free {suite} hs hd name hn := by
    have hcov := h.covers hs hd
    rcases mem_suiteTaskNames.mp hn with rfl | rfl
    · exact h.free_of_holds hp hcov.report
    · exact h.free_of_holds hp hcov.verification
  inputs {suite} hs hd := by
    have hcov := h.covers hs hd
    obtain ⟨t, ht, _⟩ := hcov.report
    obtain ⟨hreg, hn⟩ := h.task?_of_name (h.free_of_holds hp hcov.report) ht
    obtain ⟨inputs, hi, _⟩ := hreg.of_suite (mem_suiteTaskNames.mpr (Or.inl hn))
    exact ⟨inputs, hi⟩

/-- Every task that a pass registers is there in the end. -/
theorem Finished.contains_of_registers (h : pass.Finished version p q) (ht : pass.Registers p t) :
    q.tasks.contains t.name := by
  rcases ht.name with ⟨hc, hn⟩ | ⟨suite, _, hs, hd, _, hn⟩
  · have hhost := h.host hc
    rcases List.mem_pair.mp hn with e | e
    · rw [e]
      exact hhost.report.contains
    · rw [e]
      exact hhost.verification.contains
  · have hcov := h.covers hs hd
    rcases mem_suiteTaskNames.mp hn with e | e
    · rw [e]
      exact hcov.report.contains
    · rw [e]
      exact hcov.verification.contains

/-- Passes that get through agree on every task, whatever they started from. -/
theorem Finished.task?_of_task? {other : String} (hq : pass.Finished version p q)
    (hr : pass.Finished other p r) {name : String} (ht : q.task? name = some t) :
    r.task? name = some t := by
  cases hf : p.task? name with
  | some u =>
    -- Both results are settled, and settle what they started from in the same way.
    obtain ⟨v, hv, hvs⟩ := hq.kept hf
    obtain rfl : t = v := Option.some.inj (ht.symm.trans hv)
    obtain ⟨w, hw, hws⟩ := hr.kept hf
    rw [hw, ← hq.settled ht, ← hr.settled hw, hvs, hws]
  | none =>
    obtain ⟨htr, hn⟩ := hq.task?_of_name hf ht
    have hc := hr.contains_of_registers htr
    rw [hn, TaskGraph.contains_eq_isSome_get?] at hc
    obtain ⟨w, hw⟩ := Option.isSome_iff_exists.mp hc
    obtain ⟨hwr, hn'⟩ := hr.task?_of_name hf hw
    obtain rfl := htr.unique hwr (hn.trans hn'.symm)
    exact hw

/-- Whether a project is bare or has been worked on by a pass that got as far as to enable coverage. -/
def Begun (pass : CoveragePass) (p q : Project) : Prop := q = p ∨ ∃ version, pass.Underway version p q

/-- Activation leads into the first phase, whatever was done before. -/
theorem Begun.activate (hp : Bare p) (hq : pass.Begun p q) (ha : pass.activate q = .ok a) :
    ∃ version, pass.Adjusted version p (Toolchain.adjusted a.toolchains a) := by
  obtain ⟨_, _, hsettled⟩ := settled_of_activate ha
  rcases hq with rfl | ⟨version, hq⟩
  · obtain ⟨version, hu⟩ := Underway.of_activate hp ha
    exact ⟨version, hu.adjusted hsettled.follows⟩
  · exact ⟨version, (hq.activate ha).adjusted hsettled.follows⟩

/-- A project is in shape wherever a pass stopped on it. -/
theorem Begun.wellFormed (hp : Bare p) (hq : pass.Begun p q) : q.WellFormed := by
  rcases hq with rfl | ⟨version, hq⟩
  · exact hp.wellFormed
  · exact hq.wellFormed hp.wellFormed

/-- A pass that stopped leaves the suites to process as they were. -/
theorem Begun.derivedSuites (hq : pass.Begun p q) : q.derivedSuites = p.derivedSuites := by
  rcases hq with rfl | ⟨version, hq⟩
  · rfl
  · exact hq.derivedSuites

/-- A pass that gets through goes through all phases. -/
theorem Begun.finished {created : List String} (hp : Bare p) (hq : pass.Begun p q)
    (h : pass.configure q = (r, .ok (.configured created))) : ∃ version, pass.Finished version p r := by
  obtain ⟨a, b, _, ha, hb, hs⟩ := configure_eq_configured h
  obtain ⟨rfl, _⟩ := Toolchain.adjustAll_ok hb
  obtain ⟨version, hadj⟩ := hq.activate hp ha
  rw [hq.derivedSuites] at hs
  have hall := hadj.synthesizeAll fun suite hm => (hp.wellFormed.mem_derivedSuites.mp hm).1
  rw [hs] at hall
  refine ⟨version, hall, fun {suite} hc hd => ?_⟩
  have hm := hp.wellFormed.mem_derivedSuites.mpr ⟨hc, hd⟩
  have hcov := synthesizeAll_covers (congrArg Prod.snd hs) hm hd
  rwa [hs] at hcov

/-- Nothing is in the way of a pass on a project that meets its needs, whatever was done before. -/
theorem Begun.configure (hp : Bare p) (hq : pass.Begun p q) (he : pass.policy.isEligible q.path)
    (hr : pass.Ready p) : ∃ r created, pass.configure q = (r, .ok (.configured created)) := by
  have hact : ∃ a, pass.activate q = .ok a := by
    obtain ⟨version, hv⟩ := hr.version
    cases hc : q.has .coverage with
    | true => exact ⟨_, activate_of_enableCoverage hv (enableCoverage_of_has hc)⟩
    | false =>
      rcases hq with rfl | ⟨other, hq⟩
      · exact activate_of_free hv (hr.host hc)
      · rw [hq.has_eq, decide_eq_true rfl, Bool.true_or, Bool.or_true] at hc
        cases hc
  obtain ⟨a, ha⟩ := hact
  have hb := ((continues_activate ha).wellFormed (hq.wellFormed hp)).adjustAll
  obtain ⟨version, hadj⟩ := hq.activate hp ha
  rw [configure_of_adjustAll he ha hb, hadj.derivedSuites]
  cases hs : (pass.synthesizeAll p.derivedSuites (Toolchain.adjusted a.toolchains a)).2 with
  | ok created => exact ⟨_, created, rfl⟩
  | error fault =>
    -- The suites before the failing one leave an adjusted project, on which it cannot fail.
    obtain ⟨earlier, suite, later, created, hsplit, hearlier, herror⟩ :=
      synthesizeAll_error (Prod.ext rfl hs)
    have hmem : ∀ s ∈ earlier ++ suite :: later, p.suites.contains s ∧ s ≠ defaultSuite := by
      intro s hm
      rw [← hsplit] at hm
      exact hp.wellFormed.mem_derivedSuites.mp hm
    have hm := hadj.synthesizeAll fun s hm => (hmem s (List.mem_append_left _ hm)).1
    rw [hearlier] at hm
    obtain ⟨hc, hd⟩ := hmem suite (List.mem_append_right _ (List.mem_cons_self ..))
    obtain ⟨r, hok⟩ := hm.synthesize hr hc hd
    cases herror.symm.trans hok

end CoveragePass

end BuildGraph
