import BuildGraph.Proofs.Reachable

/-!
# Reports that have to be rendered

The convention that was asked for last holds for every report of a project, for those that were there
and for those that come later, whichever operation registers them. It is asked for by a call, or by a
pass that gets past activation, whatever becomes of that pass afterwards. A later convention replaces an
earlier one, but what a report was once required to render it stays required to render.
-/

namespace BuildGraph

/-! ## Tasks -/

namespace Task

/-- Whether the report of a task in a format is required; nothing if there is no such report. -/
def requirement? (t : Task) (f : ReportFormat) : Option Bool :=
  match t.action with
  | .report r => (r.outputs.find? f).map (·.required)
  | _ => none

/-- Whether a task has no report that a convention asks for and that is not required. -/
def Heeds (t : Task) (c : ReportConvention) : Prop :=
  ∀ f ∈ c.required, t.requirement? f ≠ some false

/-- A convention adds to what is required. -/
theorem requirement?_followConvention (t : Task) (c : ReportConvention) (f : ReportFormat) :
    (t.followConvention c).requirement? f =
      (t.requirement? f).map (· || c.required.contains f) := by
  cases h : t.action with
  | report r =>
    have hfind : (r.follow c).outputs.find? f = (r.outputs.find? f).map (c.apply f) :=
      SortedMap.find?_mapValues r.outputs c.apply f
    simp only [followConvention, requirement?, h, hfind, Option.map_map]
    rfl
  | _ => simp [followConvention, requirement?, h]

/-- A task that follows a convention heeds it. -/
theorem heeds_followConvention (t : Task) (c : ReportConvention) : (t.followConvention c).Heeds c := by
  intro f hf
  rw [requirement?_followConvention, List.contains_iff_mem.mpr hf]
  cases t.requirement? f <;> simp

/-- Test runs are no matter of reports. -/
theorem requirement?_mapExecution (g : TestExecution → TestExecution) (t : Task) (f : ReportFormat) :
    (mapExecution g t).requirement? f = t.requirement? f := by
  cases h : t.action <;> simp [mapExecution, requirement?, h]

end Task

/-- Adjusting to toolchains requires no report and takes none back. -/
theorem Toolchain.requirement?_adjustTask (ts : List Toolchain) (t : Task) (f : ReportFormat) :
    (adjustTask ts t).requirement? f = t.requirement? f := by
  rw [adjustTask, Task.requirement?_mapExecution]
  split <;> rfl

namespace Project

variable {p q r : Project}

/-- Whether the report of the task called `name` in a format is required. -/
def requirement? (p : Project) (name : String) (f : ReportFormat) : Option Bool :=
  (p.task? name).bind (·.requirement? f)

/-- Whether all tasks heed the convention that the project has, if it has one. -/
def HeedsConvention (p : Project) : Prop :=
  ∀ c, p.convention = some c → ∀ t ∈ p.tasks.tasks, t.Heeds c

/-! ## Steps that uphold what is required -/

/-- Whether a step takes back no requirement, and leaves all tasks heeding the convention if they did so
before. -/
structure Upholds (p q : Project) : Prop where
  required : ∀ {name f}, p.requirement? name f = some true → q.requirement? name f = some true
  heeds : p.HeedsConvention → q.HeedsConvention

namespace Upholds

theorem refl (p : Project) : p.Upholds p := ⟨id, id⟩

theorem trans (h : p.Upholds q) (h' : q.Upholds r) : p.Upholds r :=
  ⟨h'.required ∘ h.required, h'.heeds ∘ h.heeds⟩

/-- Parts of a project other than its tasks and its convention do not matter. -/
theorem of_tasks (ht : q.tasks = p.tasks) (hc : q.convention = p.convention) : p.Upholds q := by
  refine ⟨fun h => ?_, fun h => ?_⟩
  · rwa [requirement?, task?, ht]
  · rwa [HeedsConvention, ht, hc]

/-- New tasks have to heed the convention. -/
theorem of_append {ts : List Task} (ht : q.tasks.tasks = p.tasks.tasks ++ ts)
    (hc : q.convention = p.convention) (hts : ∀ c, p.convention = some c → ∀ t ∈ ts, t.Heeds c) :
    p.Upholds q where
  required := by
    intro name f h
    obtain ⟨t, hfound, hr⟩ := Option.bind_eq_some_iff.mp h
    have hq : q.task? name = some t := by
      rw [task?, TaskGraph.get?_of_append ht, show p.tasks.get? name = some t from hfound,
        Option.some_or]
    rw [requirement?, hq, Option.bind_some, hr]
  heeds hp c hconvention t hm := by
    rw [hc] at hconvention
    rw [ht] at hm
    rcases List.mem_append.mp hm with hm | hm
    · exact hp c hconvention t hm
    · exact hts c hconvention t hm

/-- Registered tasks heed the convention. -/
theorem of_grows {ts : List Task} (h : p.Grows q ts) (hts : ∀ t ∈ ts, ∃ u, t = p.conform u) :
    p.Upholds q := by
  refine .of_append h.tasks h.convention fun c hc t ht => ?_
  obtain ⟨u, rfl⟩ := hts t ht
  rw [conform, hc]
  exact u.heeds_followConvention c

/-- Changes of tasks that leave reports alone. -/
theorem of_mapTasks {g : Task → Task} (ht : q.tasks = p.tasks.mapTasks g)
    (hc : q.convention = p.convention) (hg : ∀ t f, (g t).requirement? f = t.requirement? f) :
    p.Upholds q where
  required := by
    intro name f h
    obtain ⟨t, hfound, hr⟩ := Option.bind_eq_some_iff.mp h
    have hq : q.task? name = some (TaskGraph.keepName g t) := by
      rw [task?, ht, TaskGraph.get?_mapTasks, show p.tasks.get? name = some t from hfound,
        Option.map_some]
    rw [requirement?, hq, Option.bind_some]
    exact (hg t f).trans hr
  heeds hp c hconvention t hm := by
    rw [hc] at hconvention
    rw [ht] at hm
    obtain ⟨u, hu, rfl⟩ := List.mem_map.mp hm
    intro f hf
    have hkeep : (TaskGraph.keepName g u).requirement? f = u.requirement? f := hg u f
    rw [hkeep]
    exact hp c hconvention u hu f hf

/-- Asking for a convention takes no requirement back, and all tasks heed it at once. -/
theorem configureReports (p : Project) (c : ReportConvention) : p.Upholds (p.configureReports c) where
  required := by
    intro name f h
    obtain ⟨t, hfound, hr⟩ := Option.bind_eq_some_iff.mp h
    have hq : (p.configureReports c).task? name = some (t.followConvention c) := by
      rw [task?, Project.configureReports, TaskGraph.get?_mapTasks,
        show p.tasks.get? name = some t from hfound, Option.map_some, Task.keepName_followConvention]
    rw [requirement?, hq, Option.bind_some, Task.requirement?_followConvention, hr, Option.map_some,
      Bool.true_or]
  heeds _ d hd t ht := by
    obtain rfl := Option.some.inj hd
    obtain ⟨u, _, rfl⟩ := List.mem_map.mp ht
    rw [Task.keepName_followConvention]
    exact u.heeds_followConvention c

/-- A capability brings no report. -/
theorem apply (p : Project) (c : Capability) : p.Upholds (p.apply c) := by
  obtain ⟨ts, ht, hcompile, _⟩ := p.tasks_apply c
  refine .of_append ht rfl fun _ _ t hm f _ => ?_
  rw [Task.requirement?, (hcompile t hm).1]
  nofun

/-- The default suite's report is registered by the convention of the project. -/
theorem enableCoverage {reportsDir : String} (h : p.enableCoverage reportsDir = .ok q) :
    p.Upholds q := by
  obtain ⟨m, hg, rfl⟩ := enableCoverage_ok h
  have hm : p.Upholds m := by
    refine .of_grows hg fun t ht => ?_
    unfold enabledTasks at ht
    split at ht
    · cases ht
    · obtain ⟨u, _, rfl⟩ := List.mem_map.mp ht
      exact ⟨u, rfl⟩
  split
  · exact hm
  · exact hm.trans (.of_tasks rfl rfl)

/-- A task that is registered by the convention of the project takes no requirement back. -/
theorem of_grows_conform {t : Task} (h : p.Grows q [p.conform t]) : p.Upholds q :=
  .of_grows h fun _ hu => ⟨t, List.mem_singleton.mp hu⟩

/-- A suite brings no report, and takes no requirement back. -/
theorem addSuite {name : String} {file sourceSet : Option String}
    (h : p.addSuite name file sourceSet = .ok q) : p.Upholds q := by
  obtain ⟨_, _, m, suite, hg, _, rfl⟩ := addSuite_ok h
  exact (of_grows_conform hg).trans (.of_tasks rfl rfl)

variable {pass : CoveragePass}

/-- Activation asks for the convention of the pass once all earlier requirements are in place. -/
theorem activate (h : pass.activate p = .ok q) : p.Upholds q := by
  obtain ⟨version, m, _, hm, rfl⟩ := CoveragePass.activate_ok h
  have hfinish : m.Upholds (pass.finishActivation m version) :=
    (apply m .coverageAggregation).trans ((configureReports _ pass.convention).trans (.of_tasks rfl rfl))
  exact (enableCoverage hm).trans hfinish

/-- Toolchains leave requirements alone, even if they do not get through. -/
theorem adjustAll (ts : List Toolchain) (p : Project) : p.Upholds (Toolchain.adjustAll ts p).1 := by
  rw [Toolchain.adjustAll_eq]
  exact .of_mapTasks rfl rfl (Toolchain.requirement?_adjustTask _)

/-- The reports of suites are registered by convention, as far as suites are processed. -/
theorem synthesizeAll (pass : CoveragePass) (suites : List String) (p : Project) :
    p.Upholds (pass.synthesizeAll suites p).1 := by
  obtain ⟨ts, hg, hts, _⟩ := pass.synthesizeAll_grows suites p
  refine .of_grows hg fun t ht => ?_
  obtain ⟨_, _, _, _, _, hm⟩ := hts t ht
  obtain ⟨u, _, rfl⟩ := List.mem_map.mp hm
  exact ⟨u, rfl⟩

/-- A pass upholds what is required, however far it gets. -/
theorem configure (pass : CoveragePass) (p : Project) : p.Upholds (pass.configure p).1 :=
  CoveragePass.of_configure (P := p.Upholds) (.refl p) activate
    (fun ts h => h.trans (adjustAll ts _)) (fun suites h => h.trans (synthesizeAll pass suites _))

end Upholds

/-- Every operation upholds what is required. -/
theorem upholds_run (operation : Operation) (p : Project) : p.Upholds (operation.run p) := by
  cases operation with
  | addSuite name file sourceSet => exact of_attempted (P := p.Upholds) (.refl p) fun _ h => .addSuite h
  | apply c => exact .apply p c
  | enableCoverage reportsDir =>
    exact of_attempted (P := p.Upholds) (.refl p) fun _ h => .enableCoverage h
  | configureReports convention => exact .configureReports p convention
  | register t =>
    exact of_attempted (P := p.Upholds) (.refl p) fun _ h => .of_grows_conform (register_ok h)
  | configure pass => exact .configure pass p
  | synthesize pass suite =>
    rw [Operation.run, attempted_synthesize]
    exact .synthesizeAll pass [suite] p
  | editExecution task excludedLoaders properties =>
    refine .of_mapTasks (TaskGraph.modify_eq_mapTasks ..) rfl fun t f => ?_
    split
    · exact Task.requirement?_mapExecution _ t f
    · rfl
  | editCoverage extension => exact .of_tasks rfl rfl
  | relocate path buildDir => exact .of_tasks rfl rfl
  | requestUberJar uberJar => exact .of_tasks rfl rfl

/-- No run of operations takes a requirement back. -/
theorem upholds_foldl_run (operations : List Operation) (p : Project) :
    p.Upholds (operations.foldl Operation.run p) := by
  induction operations generalizing p with
  | nil => exact .refl p
  | cons operation operations ih => exact (upholds_run operation p).trans (ih _)

/-! ## The convention that counts -/

/-- The convention that an operation asks for. -/
def Operation.convention? (p : Project) : Operation → Option ReportConvention
  | .configureReports convention => some convention
  | .configure pass =>
    if pass.policy.isEligible p.path ∧ (pass.activate p).toOption.isSome then some pass.convention
    else none
  | _ => none

/-- The last convention that a run of operations asks for. -/
def lastConvention? (p : Project) : List Operation → Option ReportConvention
  | [] => none
  | operation :: operations =>
    (lastConvention? (operation.run p) operations).or (operation.convention? p)

/-- Enabling coverage asks for no convention. -/
theorem convention_enableCoverage {reportsDir : String} (h : p.enableCoverage reportsDir = .ok q) :
    q.convention = p.convention := by
  obtain ⟨m, hg, rfl⟩ := enableCoverage_ok h
  split <;> exact hg.convention

/-- Toolchains ask for no convention. -/
theorem convention_adjustAll (ts : List Toolchain) (p : Project) :
    (Toolchain.adjustAll ts p).1.convention = p.convention := by
  rw [Toolchain.adjustAll_eq]
  rfl

/-- A pass asks for its convention exactly if it gets past activation. -/
theorem convention_configure (pass : CoveragePass) (p : Project) :
    (pass.configure p).1.convention =
      (Operation.convention? p (.configure pass)).or p.convention := by
  have hadjusted : ∀ {a b r}, pass.activate p = .ok a → Toolchain.adjustAll a.toolchains a = (b, r) →
      b.convention = some pass.convention := by
    intro a b r ha hb
    have hab := convention_adjustAll a.toolchains a
    rwa [hb, CoveragePass.convention_of_activate ha] at hab
  cases pass.progress p with
  | skipped h => simp [CoveragePass.configure_of_not_isEligible h, Operation.convention?, h]
  | stopped fault he h =>
    simp [CoveragePass.configure_of_activate_error he h, Operation.convention?, h, Except.toOption]
  | unadjusted a b fault he ha h =>
    rw [CoveragePass.configure_of_adjustAll_error he ha h, hadjusted ha h]
    simp [Operation.convention?, he, ha, Except.toOption]
  | adjusted a b he ha h =>
    obtain ⟨ts, hg, _⟩ := pass.synthesizeAll_grows b.derivedSuites b
    rw [CoveragePass.configure_of_adjustAll he ha h, hg.convention, hadjusted ha h]
    simp [Operation.convention?, he, ha, Except.toOption]

/-- A project has the convention that an operation asks for, or the one it had. -/
theorem convention_run (operation : Operation) (p : Project) :
    (operation.run p).convention = (operation.convention? p).or p.convention := by
  have hattempted : ∀ {result : Except ProjectFault Project},
      (∀ q, result = .ok q → q.convention = p.convention) →
      (p.attempted result).convention = p.convention :=
    fun h => of_attempted (P := fun q => q.convention = p.convention) rfl h
  cases operation with
  | configure pass => exact convention_configure pass p
  | addSuite name file sourceSet =>
    refine hattempted fun q h => ?_
    obtain ⟨_, _, m, suite, hg, _, rfl⟩ := addSuite_ok h
    exact hg.convention
  | enableCoverage reportsDir => exact hattempted fun q h => convention_enableCoverage h
  | register t => exact hattempted fun q h => (register_ok h).convention
  | synthesize pass suite =>
    rw [Operation.run, attempted_synthesize]
    obtain ⟨ts, hg, _⟩ := pass.synthesizeAll_grows [suite] p
    exact hg.convention
  | _ => rfl

/-- After a run a project has the last convention asked for, or else the one from before. -/
theorem convention_foldl_run (operations : List Operation) (p : Project) :
    (operations.foldl Operation.run p).convention =
      (lastConvention? p operations).or p.convention := by
  induction operations generalizing p with
  | nil => rfl
  | cons operation operations ih =>
    rw [List.foldl_cons, ih, convention_run, lastConvention?, Option.or_assoc]

/-- After any run of operations every report that the convention asked for last asks for is required;
and what is required stays required, whatever is done to whatever project. -/
theorem last_convention_heeded (path buildDir : String) (operations : List Operation) :
    (∀ c, lastConvention? (fresh path buildDir) operations = some c →
      ∀ t ∈ (operations.foldl Operation.run (fresh path buildDir)).tasks.tasks, t.Heeds c) ∧
    ∀ (p : Project) (operation : Operation) (name : String) (f : ReportFormat),
      p.requirement? name f = some true → (operation.run p).requirement? name f = some true := by
  refine ⟨fun c hc t ht => ?_, fun p operation name f => (upholds_run operation p).required⟩
  have hfresh : (fresh path buildDir).HeedsConvention := fun c hc => by cases hc
  have hheeds := (upholds_foldl_run operations (fresh path buildDir)).heeds hfresh
  have hconvention : (operations.foldl Operation.run (fresh path buildDir)).convention = some c := by
    rw [convention_foldl_run, hc, Option.some_or]
  exact hheeds c hconvention t ht

/-- A report task that somebody registers. -/
def handMadeReport (name : String) : Task where
  name
  action := .report (.below ⟨"slow", ⟨"slow", "build/slow.exec"⟩, mainSourceSet⟩ "build/mine" name name)

/-- One report is registered before a convention is asked for, another one after a pass has asked for
its own. -/
def conventionsSample : List Operation := [
  .register (handMadeReport "early"), .configureReports ⟨[.csv]⟩, .configure .sample,
  .register (handMadeReport "late")]

/-- The later report is required in the formats of the pass; the earlier one stays required in the other. -/
theorem conventionsSample_heeded :
    lastConvention? (fresh ":model" "build") conventionsSample = some .htmlAndXml ∧
      (∃ t, (conventionsSample.foldl Operation.run (fresh ":model" "build")).task? "late" = some t ∧
        t.requirement? .xml = some true) ∧
      (conventionsSample.foldl Operation.run (fresh ":model" "build")).requirement? "early" .csv =
        some true := by
  obtain ⟨hheeds, hkeeps⟩ := last_convention_heeded ":model" "build" conventionsSample
  have hlast : lastConvention? (fresh ":model" "build") conventionsSample = some .htmlAndXml := by decide
  have hlate : ((conventionsSample.foldl Operation.run (fresh ":model" "build")).requirement? "late"
      .xml).isSome := by decide
  have hearly : ((conventionsSample.take 2).foldl Operation.run (fresh ":model" "build")).requirement?
      "early" .csv = some true := by decide
  refine ⟨hlast, ?_, ?_⟩
  · obtain ⟨required, hr⟩ := Option.isSome_iff_exists.mp hlate
    obtain ⟨t, ht, hrequired⟩ := Option.bind_eq_some_iff.mp hr
    have hxml := hheeds _ hlast t (TaskGraph.get?_eq_some_iff.mp ht).1 .xml (by decide)
    refine ⟨t, ht, ?_⟩
    cases required with
    | true => exact hrequired
    | false => exact absurd hrequired hxml
  · have hpass := hkeeps _ (.configure .sample) _ _ hearly
    exact hkeeps _ (.register (handMadeReport "late")) _ _ hpass

end Project

end BuildGraph
