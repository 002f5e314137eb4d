import BuildGraph.Proofs.Declarations
import BuildGraph.Proofs.PassPhases

/-!
# Passes between declarations

A pass may run at any time while suites are declared, as often as one likes. As long as it runs once
more in the end, it makes no difference when it ran before, nor in which order the suites were declared:
a clash of names shows in one run when a suite is declared and in the other when the pass runs, but it
shows in both or in neither, and without one both end with the same project up to the order of tasks.
-/

namespace BuildGraph

open Project

variable {pass : CoveragePass} {p p' q q' m r : Project} {d : Declaration} {version suite : String}
  {t : Task}

/-! ## Bare projects -/

namespace Project.Bare

/-- Nothing has been done on a fresh project. -/
theorem fresh (path buildDir : String) : Bare (Project.fresh path buildDir) where
  wellFormed := wellFormed_fresh path buildDir
  outline {name t} ht := by
    rcases List.mem_pair.mp (TaskGraph.get?_eq_some_iff.mp ht).1 with rfl | rfl <;> rfl
  coverage := rfl
  convention := rfl

/-- A capability is no coverage work, be it that of coverage. -/
theorem apply (h : Bare p) (c : Capability) : Bare (p.apply c) where
  wellFormed := wellFormed_apply c h.wellFormed
  outline {name t} ht := by
    obtain ⟨ts, htasks, hcompile, _⟩ := p.tasks_apply c
    have hm : t ∈ (p.apply c).tasks.tasks := (TaskGraph.get?_eq_some_iff.mp ht).1
    rw [htasks] at hm
    rcases List.mem_append.mp hm with hm | hm
    · exact h.outline (TaskGraph.get?_eq_some_iff.mpr ⟨hm, rfl⟩)
    · rw [Task.outline?, (hcompile t hm).1]
  coverage := h.coverage
  convention := h.convention

/-- Several capabilities are no coverage work either. -/
theorem applyAll (h : Bare p) (capabilities : List Capability) :
    Bare (capabilities.foldl Project.apply p) := by
  induction capabilities generalizing p with
  | nil => exact h
  | cons c capabilities ih => exact ih (h.apply c)

/-- A suite brings a test task, which is no coverage task. -/
theorem declare (h : Bare p) (hq : p.declare d = some q) : Bare q := by
  have hd := declares_of_declare hq
  refine ⟨wellFormed_addSuite h.wellFormed (declare_eq_some_iff.mp hq), fun {name t} ht => ?_, ?_, ?_⟩
  · by_cases hn : name = d.name
    · rw [hn, hd.task?_self] at ht
      rw [← Option.some.inj ht]
      rfl
    · rw [hd.task?_of_ne hn] at ht
      exact h.outline ht
  · rw [hd.rest]
    exact h.coverage
  · rw [hd.rest]
    exact h.convention

theorem requestUberJar (h : Bare p) (uberJar : Bool) : Bare { p with uberJar } :=
  ⟨wellFormed_run (.requestUberJar uberJar) h.wellFormed, h.outline, h.coverage, h.convention⟩

/-- No coverage work has been done on what settings make. -/
theorem of_buildProject {c : Context} {spec : Settings.Project}
    (h : Workspace.buildProject c spec = .ok p) : Bare p := by
  refine Workspace.of_buildProject ((fresh spec.path (Workspace.buildDir c spec)).requestUberJar _)
    (fun _ capability _ hq => hq.apply capability) (fun suite _ q r hq hr => ?_) h
  have hd := declare_eq_some_iff (d := ⟨suite.name, _, suite.sourceSet⟩).mpr hr
  exact hq.declare hd

end Project.Bare

/-! ## Declaring a suite in the course of a pass -/

namespace Project.Declaration.Declares

/-- The default suite is always there, so that no declared suite is called as it. -/
theorem ne_defaultSuite (h : d.Declares p q) (hp : p.WellFormed) : d.name ≠ defaultSuite := by
  intro e
  obtain ⟨s, _, hs, _⟩ := hp.default_data
  have hn := h.new
  rw [e, SortedMap.contains, hs] at hn
  cases hn

/-- A suite that is there already is not the declared one. -/
theorem ne_of_contains (h : d.Declares p q) (hs : p.suites.contains suite) : suite ≠ d.name := by
  rintro rfl
  rw [h.new] at hs
  cases hs

/-- All other suites stay as they are. -/
theorem find?_of_ne (h : d.Declares p q) (hn : suite ≠ d.name) :
    q.suites.find? suite = p.suites.find? suite := by
  rw [h.suites, SortedMap.find?_insert_of_ne _ hn]

/-- The tasks of the default suite do not depend on what is declared besides. -/
theorem hostTasks (h : d.Declares p q) (hp : p.WellFormed) (dir : String) :
    q.hostTasks dir = p.hostTasks dir := by
  rw [Project.hostTasks, h.find?_of_ne (h.ne_defaultSuite hp).symm, Project.hostTasks]

/-- A suite that was there before has the same inputs. -/
theorem suiteInputs (h : d.Declares p q) (hp : p.WellFormed) (hs : p.suites.contains suite) :
    CoveragePass.suiteInputs q suite = CoveragePass.suiteInputs p suite := by
  have hmain : q.sourceSets.contains mainSourceSet := by
    rw [h.sourceSets, SortedSet.contains_add, hp.main, Bool.or_true]
  unfold CoveragePass.suiteInputs
  rw [h.find?_of_ne (h.ne_of_contains hs), hmain, hp.main, h.path]

theorem has_eq (h : d.Declares p q) (c : Capability) : q.has c = p.has c := by
  rw [has, h.capabilities, has]

/-- How a pass leaves a task does not depend on what is declared besides. -/
theorem settle (h : d.Declares p q) (pass : CoveragePass) (t : Task) :
    pass.settle q t = pass.settle p t := by
  rw [CoveragePass.settle, CoveragePass.toolchains_congr h.capabilities, CoveragePass.settle]

/-- A name that is free afterwards was free before. -/
theorem task?_eq_none (h : d.Declares p q) {name : String} (hf : q.task? name = none) :
    name ≠ d.name ∧ p.task? name = none := by
  have hn : name ≠ d.name := by
    rintro rfl
    rw [h.task?_self] at hf
    cases hf
  rw [h.task?_of_ne hn] at hf
  exact ⟨hn, hf⟩

/-- A name that is held by a coverage task stays with it. -/
theorem holds (h : d.Declares p q) {name : String} {kind : CoverageKind}
    (hh : p.Holds name kind suite) : q.Holds name kind suite := by
  obtain ⟨t, ht, hs⟩ := hh
  have hn : name ≠ d.name := by
    rintro rfl
    rw [h.free] at ht
    cases ht
  exact ⟨t, by rw [h.task?_of_ne hn, ht], hs⟩

end Project.Declaration.Declares

namespace CoveragePass

/-- What a pass registers, it registers also with one more suite. -/
theorem Registers.declares (h : pass.Registers p t) (hp : p.WellFormed) (hd : d.Declares p p') :
    pass.Registers p' t := by
  have hhome : pass.reportsHome p' = pass.reportsHome p := by rw [reportsHome, hd.rest, reportsHome]
  cases h with
  | host hc ht =>
    refine .host ?_ ?_
    · rw [hd.has_eq, hc]
    · rw [hd.hostTasks hp, hhome]
      exact ht
  | suite hs hne hi ht =>
    refine .suite (hd.contains_iff.mpr (Or.inr hs)) hne ((hd.suiteInputs hp hs).trans hi) ?_
    rw [hhome]
    exact ht

/-- Declaring a suite does not undo what a pass has done. -/
theorem Underway.declares (h : pass.Underway version p q) (hp : p.WellFormed) (hd : d.Declares p p')
    (hd' : d.Declares q q') : pass.Underway version p' q' := by
  refine {
    pinned := h.pinned
    rest := ?rest
    kept := fun {name t} ht => ?kept
    gained := fun {name t} hf ht => ?gained
    host := fun hc => ?host }
  case rest =>
    rw [hd'.rest, hd.rest, h.rest]
    rfl
  case kept =>
    simp only [hd.settle]
    by_cases hn : name = d.name
    · rw [hn, hd.task?_self] at ht
      rw [hn, ← Option.some.inj ht]
      exact ⟨_, hd'.task?_self, rfl⟩
    · rw [hd.task?_of_ne hn] at ht
      rw [hd'.task?_of_ne hn]
      exact h.kept ht
  case gained =>
    obtain ⟨hn, hf⟩ := hd.task?_eq_none hf
    rw [hd'.task?_of_ne hn] at ht
    exact (h.gained hf ht).declares hp hd
  case host =>
    rw [hd.has_eq] at hc
    have hhost := h.host hc
    exact ⟨hd'.holds hhost.report, hd'.holds hhost.verification⟩

/-- What a pass needs with one more suite, it needs without it. -/
theorem Ready.of_declares (h : pass.Ready p') (hp : p.WellFormed) (hd : d.Declares p p') :
    pass.Ready p where
  version := h.version
  host hc name hn := by
    rw [← hd.has_eq] at hc
    exact (hd.task?_eq_none (h.host hc name hn)).2
  free {suite} hs hne name hn :=
    (hd.task?_eq_none (h.free (hd.contains_iff.mpr (Or.inr hs)) hne name hn)).2
  inputs {suite} hs hne := by
    obtain ⟨inputs, hi⟩ := h.inputs (hd.contains_iff.mpr (Or.inr hs)) hne
    exact ⟨inputs, (hd.suiteInputs hp hs).symm.trans hi⟩

/-- If a project meets the needs of a pass after suites are declared, it met them before. -/
theorem Ready.of_declareAll {ds : List Declaration} (h : pass.Ready m) (hp : Bare p)
    (hm : declareAll ds p = some m) : pass.Ready p := by
  induction ds generalizing p with
  | nil =>
    obtain rfl := Option.some.inj hm
    exact h
  | cons d ds ih =>
    obtain ⟨n, hn, hm⟩ := declareAll_cons_eq_some.mp hm
    exact (ih (hp.declare hn) hm).of_declares hp.wellFormed (declares_of_declare hn)

/-- What can be declared in the course of passes can be declared without them. -/
theorem Begun.declare (hp : Bare p) (hq : pass.Begun p q) (h : q.declare d = some q') :
    ∃ p', p.declare d = some p' ∧ pass.Begun p' q' := by
  rcases hq with rfl | ⟨version, hq⟩
  · exact ⟨q', h, Or.inl rfl⟩
  · have hd' := declares_of_declare h
    have hfree : p.task? d.name = none := by
      cases hf : p.task? d.name with
      | none => rfl
      | some t =>
        obtain ⟨u, hu, _⟩ := hq.kept hf
        rw [hd'.free] at hu
        cases hu
    obtain ⟨p', hp', hd⟩ := declare_of_free (by rw [← hq.suites, hd'.new]) hfree
    exact ⟨p', hp', Or.inr ⟨version, hq.declares hp.wellFormed hd hd'⟩⟩

/-- What can be declared without passes can be declared in their course, unless that takes a name that a
pass needs. -/
theorem Begun.declare_of_ready (hp : Bare p) (hq : pass.Begun p q) (h : p.declare d = some p')
    (hr : pass.Ready p') : ∃ q', q.declare d = some q' ∧ pass.Begun p' q' := by
  rcases hq with rfl | ⟨version, hq⟩
  · exact ⟨p', h, Or.inl rfl⟩
  · have hd := declares_of_declare h
    have hfree : q.task? d.name = none := by
      cases hf : q.task? d.name with
      | none => rfl
      | some t =>
        -- Only the pass can have put a task there, and then the last pass would miss the name.
        obtain ⟨hreg, hn⟩ := hq.task?_of_name hd.free hf
        have hnone := hr.task?_eq_none (hreg.declares hp.wellFormed hd)
        rw [hn, hd.task?_self] at hnone
        cases hnone
    obtain ⟨q', hq', hd'⟩ := declare_of_free (by rw [hq.suites, hd.new]) hfree
    exact ⟨q', hq', Or.inr ⟨version, hq.declares hp.wellFormed hd hd'⟩⟩

/-- A pass leaves the path of a project alone, however far it got. -/
theorem Begun.path (hq : pass.Begun p q) : q.path = p.path := by
  rcases hq with rfl | ⟨version, hq⟩
  · rfl
  · exact hq.path

/-! ## Steps -/

/-- What is done to a project: a suite is declared, or the pass runs. -/
inductive Step where
  | declare (d : Declaration)
  | pass
deriving DecidableEq, Repr

/-- The project after a step, if the step succeeds. -/
def Step.run (pass : CoveragePass) (p : Project) : Step → Option Project
  | .declare d => p.declare d
  | .pass =>
    match pass.configure p with
    | (q, .ok _) => some q
    | (_, .error _) => none

/-- The project after steps, if all of them succeed. -/
def runAll (pass : CoveragePass) (steps : List Step) (p : Project) : Option Project :=
  steps.foldlM (Step.run pass) p

/-- The suites that steps declare, in order. -/
def declared (steps : List Step) : List Declaration :=
  steps.filterMap fun
    | .declare d => some d
    | .pass => none

variable {step : Step} {steps : List Step}

/-- Steps succeed if the first one does, and the others after it. -/
theorem runAll_cons_eq_some :
    pass.runAll (step :: steps) p = some q ↔
      ∃ m, step.run pass p = some m ∧ pass.runAll steps m = some q := by
  rw [runAll, List.foldlM_cons, Option.bind_eq_bind, Option.bind_eq_some_iff]
  rfl

/-- Steps succeed if all but the last one do, and the last one after them. -/
theorem runAll_concat_eq_some :
    pass.runAll (steps ++ [step]) p = some q ↔
      ∃ m, pass.runAll steps p = some m ∧ step.run pass m = some q := by
  rw [runAll, List.foldlM_append, Option.bind_eq_bind, Option.bind_eq_some_iff]
  simp only [List.foldlM_cons, List.foldlM_nil, bind_pure]
  rfl

/-- A pass counts as a step if it gets through, or if it leaves the project out. -/
theorem run_pass_eq_some_iff :
    Step.pass.run pass p = some q ↔ ∃ outcome, pass.configure p = (q, .ok outcome) := by
  rw [Step.run]
  rcases pass.configure p with ⟨r, fault | outcome⟩ <;> simp

theorem declared_pass (steps : List Step) : declared (.pass :: steps) = declared steps := rfl

theorem declared_declare (d : Declaration) (steps : List Step) :
    declared (.declare d :: steps) = d :: declared steps := rfl

/-- A pass in the end declares nothing. -/
theorem declared_concat_pass (steps : List Step) : declared (steps ++ [.pass]) = declared steps := by
  rw [declared, List.filterMap_append, List.filterMap_cons_none rfl, List.filterMap_nil,
    List.append_nil, declared]

/-! ## Steps without and with the pass -/

/-- A pass that leaves the project out makes no difference at all. -/
theorem runAll_of_not_isEligible (he : pass.policy.isEligible p.path = false) :
    pass.runAll steps p = declareAll (declared steps) p := by
  induction steps generalizing p with
  | nil => rfl
  | cons step steps ih =>
    refine Option.ext fun q => ?_
    rw [runAll_cons_eq_some]
    cases step with
    | pass =>
      rw [declared_pass, ← ih he, Step.run, configure_of_not_isEligible he]
      constructor
      · rintro ⟨m, hm, hq⟩
        obtain rfl := Option.some.inj hm
        exact hq
      · exact fun hq => ⟨p, rfl, hq⟩
    | declare d =>
      rw [declared_declare, declareAll_cons_eq_some]
      refine exists_congr fun m => and_congr_right fun hm => ?_
      have hpath := (declares_of_declare hm).path
      rw [ih (by rw [hpath, he])]

/-- A pass on an eligible project that succeeds is in its last phase. -/
theorem Begun.finished_of_run (hp : Bare p) (hq : pass.Begun p q) (he : pass.policy.isEligible p.path)
    (h : Step.pass.run pass q = some r) : ∃ version, pass.Finished version p r := by
  obtain ⟨outcome, h⟩ := run_pass_eq_some_iff.mp h
  obtain ⟨created, rfl⟩ := configured_of_isEligible (by rwa [hq.path]) h
  exact hq.finished hp h

/-- If steps succeed, so do their declarations alone, and the pass has done nothing else. -/
theorem Begun.of_runAll (hp : Bare p) (hq : pass.Begun p q) (he : pass.policy.isEligible p.path)
    (h : pass.runAll steps q = some r) :
    ∃ m, declareAll (declared steps) p = some m ∧ Bare m ∧ m.path = p.path ∧ pass.Begun m r := by
  -- Two projects go side by side: `q` takes all steps, `p` the declarations only.
  induction steps generalizing p q with
  | nil =>
    obtain rfl := Option.some.inj h
    exact ⟨p, rfl, hp, rfl, hq⟩
  | cons step steps ih =>
    obtain ⟨n, hn, hrest⟩ := runAll_cons_eq_some.mp h
    cases step with
    | pass =>
      obtain ⟨version, hf⟩ := hq.finished_of_run hp he hn
      exact ih hp (Or.inr ⟨version, hf.toUnderway⟩) he hrest
    | declare d =>
      obtain ⟨p', hp', hb⟩ := hq.declare hp hn
      have hpath := (declares_of_declare hp').path
      obtain ⟨m, hm, hbare, hmpath, hmb⟩ := ih (hp.declare hp') hb (by rwa [hpath]) hrest
      exact ⟨m, declareAll_cons_eq_some.mpr ⟨p', hp', hm⟩, hbare, hmpath.trans hpath, hmb⟩

/-- If declarations succeed and leave the pass all that it needs, the pass may run in between. -/
theorem Begun.runAll_of_ready (hp : Bare p) (hq : pass.Begun p q) (he : pass.policy.isEligible p.path)
    (h : declareAll (declared steps) p = some m) (hr : pass.Ready m) :
    ∃ r, pass.runAll steps q = some r ∧ pass.Begun m r := by
  induction steps generalizing p q with
  | nil =>
    obtain rfl := Option.some.inj h
    exact ⟨q, rfl, hq⟩
  | cons step steps ih =>
    cases step with
    | pass =>
      -- What the pass will need in the end it finds also now, with fewer suites.
      have hready := hr.of_declareAll hp h
      obtain ⟨n, created, hn⟩ := hq.configure hp (by rwa [hq.path]) hready
      obtain ⟨version, hf⟩ := hq.finished hp hn
      obtain ⟨r, hrun, hb⟩ := ih hp (Or.inr ⟨version, hf.toUnderway⟩) he h
      exact ⟨r, runAll_cons_eq_some.mpr ⟨n, run_pass_eq_some_iff.mpr ⟨_, hn⟩, hrun⟩, hb⟩
    | declare d =>
      obtain ⟨p', hp', h⟩ := declareAll_cons_eq_some.mp h
      have hready := hr.of_declareAll (hp.declare hp') h
      obtain ⟨n, hn, hb⟩ := hq.declare_of_ready hp hp' hready
      have hpath := (declares_of_declare hp').path
      obtain ⟨r, hrun, hb⟩ := ih (hp.declare hp') hb (by rwa [hpath]) h
      exact ⟨r, runAll_cons_eq_some.mpr ⟨n, hn, hrun⟩, hb⟩

/-- Steps that end with the pass succeed exactly if the declarations do and leave the pass all that it
needs. The result depends on the declarations only. -/
theorem runAll_pass (hp : Bare p) (he : pass.policy.isEligible p.path) :
    ((∃ q, pass.runAll (steps ++ [.pass]) p = some q) ↔
      ∃ m, declareAll (declared steps) p = some m ∧ pass.Ready m) ∧
    ∀ q, pass.runAll (steps ++ [.pass]) p = some q →
      ∃ m version, declareAll (declared steps) p = some m ∧ Bare m ∧ pass.Finished version m q := by
  have hfinished : ∀ q, pass.runAll (steps ++ [.pass]) p = some q →
      ∃ m version, declareAll (declared steps) p = some m ∧ Bare m ∧ pass.Finished version m q := by
    intro q h
    obtain ⟨n, hn, hq⟩ := runAll_concat_eq_some.mp h
    obtain ⟨m, hm, hbare, hpath, hb⟩ := Begun.of_runAll hp (Or.inl rfl) he hn
    obtain ⟨version, hf⟩ := hb.finished_of_run hbare (by rwa [hpath]) hq
    exact ⟨m, version, hm, hbare, hf⟩
  refine ⟨⟨?_, ?_⟩, hfinished⟩
  · rintro ⟨q, h⟩
    obtain ⟨m, version, hm, hbare, hf⟩ := hfinished q h
    exact ⟨m, hm, hf.ready hbare⟩
  · rintro ⟨m, hm, hr⟩
    rw [← declared_concat_pass] at hm
    obtain ⟨r, hrun, _⟩ := Begun.runAll_of_ready hp (Or.inl rfl) he hm hr
    exact ⟨r, hrun⟩

/-! ## The order of declarations -/

/-- The order of tasks does not matter for what a pass registers. -/
theorem Registers.alike (h : pass.Registers p t) (ha : p.Alike q) : pass.Registers q t := by
  rw [ha.rest]
  cases h with
  | host hc ht => exact .host hc ht
  | suite hs hd hi ht => exact .suite hs hd hi ht

/-- The needs of a pass do not depend on the order of the tasks. -/
theorem Ready.alike (h : pass.Ready p) (ha : p.Alike q) : pass.Ready q where
  version := h.version
  host hc name hn := by
    rw [ha.task?]
    rw [has, ha.capabilities] at hc
    exact h.host hc name hn
  free {suite} hs hd name hn := by
    rw [ha.task?]
    rw [ha.suites] at hs
    exact h.free hs hd name hn
  inputs {suite} hs hd := by
    rw [ha.suites] at hs
    obtain ⟨inputs, hi⟩ := h.inputs hs hd
    refine ⟨inputs, ?_⟩
    rw [ha.rest]
    exact hi

/-- What a pass is to leave does not depend on the order of the tasks before it. -/
theorem Finished.alike (h : pass.Finished version p r) (ha : p.Alike q) :
    pass.Finished version q r := by
  have hsettle : ∀ t, pass.settle q t = pass.settle p t := by
    intro t
    rw [settle, toolchains_congr ha.capabilities, settle]
  refine {
    pinned := h.pinned
    rest := ?rest
    kept := fun {name t} ht => ?kept
    gained := fun {name t} hf ht => ?gained
    host := fun hc => ?host
    settled := fun {name t} ht => ?settled
    covers := fun {suite} hs hd => ?covers }
  case rest =>
    rw [h.rest, ha.rest]
    rfl
  case kept =>
    rw [ha.task?] at ht
    simp only [hsettle]
    exact h.kept ht
  case gained =>
    rw [ha.task?] at hf
    exact (h.gained hf ht).alike ha
  case host =>
    rw [has, ha.capabilities] at hc
    exact h.host hc
  case settled =>
    rw [hsettle]
    exact h.settled ht
  case covers =>
    rw [ha.suites] at hs
    exact h.covers hs hd

/-- Passes that get through end with projects that are alike. -/
theorem Finished.alike_result {other : String} (hq : pass.Finished version p q)
    (hr : pass.Finished other p r) : q.Alike r := by
  obtain rfl : version = other := Except.ok.inj (hq.pinned.symm.trans hr.pinned)
  refine ⟨?_, fun name => Option.ext fun t => ?_⟩
  · rw [hr.rest, hq.rest]
  · exact ⟨hr.task?_of_task? hq, hq.task?_of_task? hr⟩

/-- Steps that declare the same suites and end with the pass come to the same. -/
theorem runAll_alike {first second : List Step} (hp : Bare p)
    (hd : (declared first).Perm (declared second))
    (h : pass.runAll (first ++ [.pass]) p = some q) :
    ∃ r, pass.runAll (second ++ [.pass]) p = some r ∧ q.Alike r := by
  cases he : pass.policy.isEligible p.path with
  | false =>
    rw [runAll_of_not_isEligible he, declared_concat_pass] at h ⊢
    exact declareAll_perm hd h
  | true =>
    obtain ⟨m, version, hm, hbare, hf⟩ := (runAll_pass hp he).2 q h
    obtain ⟨n, hn, halike⟩ := declareAll_perm hd hm
    obtain ⟨r, hr⟩ := (runAll_pass hp he).1.mpr ⟨n, hn, (hf.ready hbare).alike halike⟩
    obtain ⟨n', other, hn', _, hf'⟩ := (runAll_pass hp he).2 r hr
    obtain rfl : n = n' := Option.some.inj (hn.symm.trans hn')
    exact ⟨r, hr, (hf.alike halike).alike_result hf'⟩

/-- However suites are declared and passes run in between, as long as the same suites are declared and a
pass comes last, all steps of one run succeed exactly if all of the other do, and both give the same
project but for the order of its tasks. -/
theorem interleaved_passes_agree (pass : CoveragePass) (path buildDir : String)
    (capabilities : List Capability) {first second : List Step} (hf : first.getLast? = some .pass)
    (hs : second.getLast? = some .pass) (hd : (declared first).Perm (declared second)) :
    ((pass.runAll first (capabilities.foldl Project.apply (.fresh path buildDir))).isSome ↔
      (pass.runAll second (capabilities.foldl Project.apply (.fresh path buildDir))).isSome) ∧
    ∀ p q, pass.runAll first (capabilities.foldl Project.apply (.fresh path buildDir)) = some p →
      pass.runAll second (capabilities.foldl Project.apply (.fresh path buildDir)) = some q →
      (∀ name, q.task? name = p.task? name) ∧ q.tasks.tasks.Perm p.tasks.tasks ∧
        q.suites = p.suites ∧ q.sourceSets = p.sourceSets ∧ q.capabilities = p.capabilities ∧
        q.coverage = p.coverage ∧ q.convention = p.convention := by
  have hp : Bare (capabilities.foldl Project.apply (.fresh path buildDir)) :=
    (Bare.fresh path buildDir).applyAll capabilities
  obtain ⟨first, rfl⟩ := List.getLast?_eq_some_iff.mp hf
  obtain ⟨second, rfl⟩ := List.getLast?_eq_some_iff.mp hs
  rw [declared_concat_pass, declared_concat_pass] at hd
  refine ⟨?_, fun p q hp' hq => ?_⟩
  · rw [Option.isSome_iff_exists, Option.isSome_iff_exists]
    constructor
    · rintro ⟨q, hq⟩
      obtain ⟨r, hr, _⟩ := runAll_alike hp hd hq
      exact ⟨r, hr⟩
    · rintro ⟨q, hq⟩
      obtain ⟨r, hr, _⟩ := runAll_alike hp hd.symm hq
      exact ⟨r, hr⟩
  · obtain ⟨r, hr, halike⟩ := runAll_alike hp hd hp'
    obtain rfl : r = q := Option.some.inj (hr.symm.trans hq)
    exact ⟨halike.task?, halike.perm, halike.suites, halike.sourceSets, halike.capabilities,
      halike.coverage, halike.convention⟩

/-- Two suites are declared before the only pass. -/
def passInTheEnd : List Step :=
  [.declare ⟨"slow", some "build/slow.exec", none⟩, .declare ⟨"fast", some "build/fast.exec", none⟩,
    .pass]

/-- A pass runs before and after each of the two suites is declared, the other one first. -/
def passesInBetween : List Step :=
  [.pass, .declare ⟨"fast", some "build/fast.exec", none⟩, .pass,
    .declare ⟨"slow", some "build/slow.exec", none⟩, .pass]

/-- One pass in the end and passes in between lead to the same tasks in another order. -/
theorem passesInBetween_agree :
    ∃ p q,
      CoveragePass.sample.runAll passInTheEnd
        ([.toolchain .quarkus].foldl Project.apply (.fresh ":model" "build")) = some p ∧
      CoveragePass.sample.runAll passesInBetween
        ([.toolchain .quarkus].foldl Project.apply (.fresh ":model" "build")) = some q ∧
      (∀ name, q.task? name = p.task? name) ∧ q.tasks.tasks.Perm p.tasks.tasks := by
  have hd : (declared passInTheEnd).Perm (declared passesInBetween) := .swap ..
  have hf : passInTheEnd.getLast? = some .pass := rfl
  have hs : passesInBetween.getLast? = some .pass := rfl
  have h := interleaved_passes_agree CoveragePass.sample ":model" "build" [.toolchain .quarkus] hf hs hd
  have hp : (CoveragePass.sample.runAll passInTheEnd
      ([.toolchain .quarkus].foldl Project.apply (.fresh ":model" "build"))).isSome := by decide
  obtain ⟨p, hp'⟩ := Option.isSome_iff_exists.mp hp
  obtain ⟨q, hq⟩ := Option.isSome_iff_exists.mp (h.1.mp hp)
  obtain ⟨htask, hperm, _⟩ := h.2 p q hp' hq
  exact ⟨p, q, hp', hq, htask, hperm⟩

end CoveragePass

end BuildGraph
