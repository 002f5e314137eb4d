import BuildGraph.Proofs.BuiltProject
import BuildGraph.Proofs.CoveredSuites

/-!
# The first pass on a project

On a project as settings make it, a pass succeeds exactly if the agent's version is known, every suite
has data, and no suite is called like a coverage task. It then registers both coverage tasks of the
default suite and of every other one, in byte order of the suites. How long a name may be, or what else
is in it, does not matter.
-/

namespace BuildGraph.CoveragePass

open Project

variable {pass : CoveragePass} {p q a b : Project}

/-- What a pass needs of a project that has no coverage yet. -/
structure Configurable (pass : CoveragePass) (p : Project) : Prop where
  version : ∃ version, pass.catalog.version pass.toolVersionKey = .ok version
  /-- No suite is called like a coverage task of the default suite. -/
  host : ∀ name ∈ hostTaskNames, p.suites.contains name = false
  data : ∀ name suite, p.suites.find? name = some suite → suite.executionData.isSome
  /-- No suite is called like a coverage task of another one. -/
  names : ∀ suite, p.suites.contains suite → suite ≠ defaultSuite →
    ∀ name ∈ suiteTaskNames suite, p.suites.contains name = false

/-- The coverage tasks of the default suite are called as no task that a project has by itself. -/
theorem not_mem_builtinTaskNames_of_host {name : String} (h : name ∈ hostTaskNames) :
    name ∉ builtinTaskNames := by
  rcases List.mem_pair.mp h with rfl | rfl <;> decide

/-- Whatever a suite is called, its coverage tasks are called as no task that a project has by itself. -/
theorem not_mem_builtinTaskNames {suite name : String} (h : name ∈ suiteTaskNames suite) :
    name ∉ builtinTaskNames := by
  intro hb
  simp only [builtinTaskNames, Toolchain.all, List.map_cons, List.map_nil, List.mem_cons,
    List.not_mem_nil, or_false] at hb
  rcases hb with rfl | rfl | rfl
  · exact not_mem_suiteTaskNames suite (by decide) (by decide) h
  · exact not_mem_suiteTaskNames suite (by decide) (by decide) h
  · exact not_mem_suiteTaskNames suite (by decide) (by decide) h

/-- No coverage task is called as the default suite. -/
theorem ne_defaultSuite_of_mem {suite name : String} (h : name ∈ suiteTaskNames suite) :
    name ≠ defaultSuite := by
  rintro rfl
  exact not_mem_suiteTaskNames suite (by decide) (by decide) h

/-! ## What activation brings -/

/-- The default suite always records data. -/
theorem executionData_default (hp : p.WellFormed) :
    ∃ data, (p.suites.find? defaultSuite).bind (·.executionData) = some data := by
  obtain ⟨s, data, hs, hd⟩ := hp.default_data
  exact ⟨data, by rw [hs, Option.bind_some, hd]⟩

/-- The tasks that enabling coverage registers under free names. -/
theorem names_enabledTasks_of_free (reportsDir : String) (hp : p.WellFormed)
    (hc : p.has .coverage = false) (hfree : ∀ name ∈ hostTaskNames, p.task? name = none) :
    (p.enabledTasks reportsDir).map (·.name) = hostTaskNames := by
  obtain ⟨data, hd⟩ := executionData_default hp
  have hnames : (p.hostTasks reportsDir).map (·.name) = hostTaskNames := by
    rw [hostTasks, hd]
    rfl
  rw [enabledTasks, hc, if_neg (by simp), names_absent, hnames, List.filter_eq_self]
  intro name hm
  simp [TaskGraph.contains_eq_false_iff.mpr (hfree name hm)]

/-- With the version at hand and the names of the default suite's tasks free, activation succeeds. -/
theorem activate_of_free {version : String}
    (hv : pass.catalog.version pass.toolVersionKey = .ok version)
    (hfree : ∀ name ∈ hostTaskNames, p.task? name = none) : ∃ a, pass.activate p = .ok a := by
  cases he : p.enableCoverage (Path.join p.buildDir pass.reportsDir) with
  | ok m => exact ⟨_, activate_of_enableCoverage hv he⟩
  | error fault =>
    obtain ⟨name, hn, _, htaken⟩ := enableCoverage_error he
    rw [TaskGraph.contains_eq_false_iff.mpr (hfree name hn)] at htaken
    cases htaken

/-- The first activation gives the default suite its coverage tasks. -/
theorem holdsHostTasks_of_activate (hp : p.WellFormed) (hc : p.has .coverage = false)
    (ha : pass.activate p = .ok a) : a.HoldsHostTasks := by
  obtain ⟨data, hd⟩ := executionData_default hp
  obtain ⟨version, m, _, hm, rfl⟩ := activate_ok ha
  exact (enableCoverage_holds hm hc hd).continues (pass.continues_finishActivation m version)

/-- Reports of a project whose coverage is enabled by a pass go where the pass says. -/
theorem reportsRoot_of_activate (hc : p.has .coverage = false) (ha : pass.activate p = .ok a) :
    pass.reportsRoot a = Path.join p.buildDir pass.reportsDir := by
  obtain ⟨version, m, _, hm, rfl⟩ := activate_ok ha
  rw [enableCoverage_of_not_has hc] at hm
  obtain ⟨n, _, rfl⟩ := except_map_ok hm
  rfl

/-! ## When a pass succeeds -/

/-- After activation and adjustment, the names of a suite's coverage tasks are as free as before. -/
theorem task?_eq_none_of_adjustAll (ha : pass.activate p = .ok a)
    (hb : Toolchain.adjustAll a.toolchains a = (b, .ok ())) {suite name : String}
    (hn : name ∈ suiteTaskNames suite) (hfree : p.task? name = none) : b.task? name = none := by
  obtain ⟨rfl, _⟩ := Toolchain.adjustAll_ok hb
  rw [task?, TaskGraph.get?_eq_none_iff, Toolchain.names_adjusted, names_activate ha, List.mem_append]
  rintro (hm | hm)
  · exact TaskGraph.get?_eq_none_iff.mp hfree hm
  · have hhost := (p.names_enabledTasks_sublist _).subset hm
    exact not_mem_hostTaskNames hn hhost

/-- Nothing is in the way of a pass on a project that meets its needs. -/
theorem Configurable.configure (hp : Built p) (he : pass.policy.isEligible p.path)
    (h : pass.Configurable p) :
    (pass.configure p).2 = .ok (.configured (p.derivedSuites.flatMap suiteTaskNames)) := by
  have hw := hp.reachable.wellFormed
  obtain ⟨version, hv⟩ := h.version
  obtain ⟨a, ha⟩ := activate_of_free hv fun name hn =>
    hp.task?_eq_none (h.host name hn) (not_mem_builtinTaskNames_of_host hn)
  have hb := ((continues_activate ha).wellFormed hw).adjustAll
  have hpb := continues_of_adjustAll ha hb
  have hall : (pass.synthesizeAll p.derivedSuites (Toolchain.adjusted a.toolchains a)).2 =
      .ok (p.derivedSuites.flatMap suiteTaskNames) := by
    have hnodup : p.derivedSuites.Nodup := hw.derivedSuites_bytesBefore.imp fun hlt e => by
      rw [e] at hlt
      exact Text.not_bytesBefore_self _ hlt
    refine synthesizeAll_of_free hnodup fun suite hm => ?_
    obtain ⟨hc, hd⟩ := hw.mem_derivedSuites.mp hm
    refine ⟨hd, ?_, fun name hn => ?_⟩
    · obtain ⟨s, hs⟩ := Option.isSome_iff_exists.mp hc
      obtain ⟨data, hdata⟩ := Option.isSome_iff_exists.mp (h.data suite s hs)
      refine ⟨_, suiteInputs_of_data (s := s) ?_ hdata ?_⟩
      · rw [hpb.suites, hs]
      · rw [hpb.sourceSets, hw.main]
    · exact task?_eq_none_of_adjustAll ha hb hn
        (hp.task?_eq_none (h.names suite hc hd name hn) (not_mem_builtinTaskNames hn))
  rw [configure_of_adjustAll he ha hb, hpb.derivedSuites, hall]
  rfl

/-- A pass that succeeds found what it needs. -/
theorem configurable_of_configure {created : List String} (hp : Built p)
    (h : pass.configure p = (q, .ok (.configured created))) : pass.Configurable p := by
  have hw := hp.reachable.wellFormed
  have hpq := pass.continues_configure p
  rw [h] at hpq
  obtain ⟨a, b, _, ha, hb, hq⟩ := configure_eq_configured h
  have hfree : ∀ suite, p.suites.contains suite → suite ≠ defaultSuite →
      ∀ name ∈ suiteTaskNames suite, p.tasks.contains name = false := by
    intro suite hc hd name hn
    have hcov := covers_of_configure hw h hc hd
    rcases mem_suiteTaskNames.mp hn with rfl | rfl
    · exact hp.free_of_holds hpq hcov.report
    · exact hp.free_of_holds hpq hcov.verification
  refine ⟨?_, ?_, ?_, ?_⟩
  · obtain ⟨version, _, hv, _⟩ := activate_ok ha
    exact ⟨version, hv⟩
  · have hhost := holdsHostTasks_of_activate hw hp.uncovered ha
    have hpa := continues_activate ha
    intro name hn
    rcases List.mem_pair.mp hn with rfl | rfl
    · exact hp.suites_of_free (hp.free_of_holds hpa hhost.report) (by decide)
    · exact hp.suites_of_free (hp.free_of_holds hpa hhost.verification) (by decide)
  · intro suite s hs
    by_cases hd : suite = defaultSuite
    · obtain ⟨t, data, ht, hdata⟩ := hw.default_data
      obtain rfl : s = t := Option.some.inj (hs.symm.trans (by rw [hd, ht]))
      exact Option.isSome_of_eq_some hdata
    · -- The report task was not there, so the suite's inputs were.
      have hc : p.suites.contains suite := Option.isSome_of_eq_some hs
      have hn : reportTaskName suite ∈ suiteTaskNames suite := mem_suiteTaskNames.mpr (Or.inl rfl)
      have hnone := task?_eq_none_of_adjustAll ha hb hn
        (TaskGraph.contains_eq_false_iff.mp (hfree suite hc hd _ hn))
      obtain ⟨t, ht, _⟩ := (covers_of_configure hw h hc hd).report
      obtain ⟨ts, hg, hts, _⟩ := pass.synthesizeAll_grows p.derivedSuites b
      rw [hq] at hg
      obtain ⟨hm, hfound⟩ := hg.mem_of_task? hnone ht
      obtain ⟨suite', _, _, hname, inputs, hi, _⟩ := (hts t hm).inputs
      rw [hfound] at hname
      obtain rfl := suite_unique hn hname
      obtain ⟨s', data, hs', hdata, _⟩ := suiteInputs_ok hi
      rw [(continues_of_adjustAll ha hb).suites, hs] at hs'
      obtain rfl := Option.some.inj hs'
      exact Option.isSome_of_eq_some hdata
  · intro suite hc hd name hn
    exact hp.suites_of_free (hfree suite hc hd name hn) (ne_defaultSuite_of_mem hn)

/-! ## What a pass registers -/

/-- A name that a suite gets goes to the suite's own task, which follows the convention already. -/
theorem task?_of_isSuiteTask {suites : List String} {ts : List Task} {suite name : String}
    {inputs : CoverageInputs} (hg : b.Grows q ts) (hts : ∀ t ∈ ts, pass.IsSuiteTask b suites t)
    (hconv : b.convention = some pass.convention) (hn : name ∈ suiteTaskNames suite)
    (hi : suiteInputs b suite = .ok inputs) (hnone : b.task? name = none)
    (hc : q.tasks.contains name) :
    ∃ t ∈ pass.suiteTasks b inputs, t.name = name ∧
      q.task? name = some (t.followConvention pass.convention) := by
  rw [TaskGraph.contains_eq_isSome_get?] at hc
  obtain ⟨t, ht⟩ := Option.isSome_iff_exists.mp hc
  have ht : q.task? name = some t := ht
  obtain ⟨hm, hname⟩ := hg.mem_of_task? hnone ht
  obtain ⟨suite', _, _, inputs', hi', hm⟩ := hts t hm
  obtain ⟨u, hu, rfl⟩ := List.mem_map.mp hm
  rw [name_conform] at hname
  have hu' : u.name ∈ (pass.suiteTasks b inputs').map (·.name) := List.mem_map_of_mem hu
  rw [names_suiteTasks, suite_of_suiteInputs hi', hname] at hu'
  obtain rfl := suite_unique hn hu'
  obtain rfl := Except.ok.inj (hi.symm.trans hi')
  refine ⟨u, hu, hname, ?_⟩
  rw [ht, conform, hconv]

/-- The coverage tasks that a suite gets under free names. -/
theorem suiteTasks_of_isSuiteTask {suites : List String} {ts : List Task} {suite : String}
    {inputs : CoverageInputs} (hg : b.Grows q ts) (hts : ∀ t ∈ ts, pass.IsSuiteTask b suites t)
    (hconv : b.convention = some pass.convention) (hi : suiteInputs b suite = .ok inputs)
    (hfree : ∀ name ∈ suiteTaskNames suite, b.task? name = none) (hcov : Covers q suite) :
    q.task? (reportTaskName suite) = some (pass.reportTask inputs (pass.reportsRoot b)) ∧
      q.task? (verificationTaskName suite) = some (verificationTask inputs) := by
  have hr : reportTaskName suite ∈ suiteTaskNames suite := mem_suiteTaskNames.mpr (Or.inl rfl)
  have hv : verificationTaskName suite ∈ suiteTaskNames suite := mem_suiteTaskNames.mpr (Or.inr rfl)
  constructor
  · obtain ⟨t, ht, hname, hq⟩ :=
      task?_of_isSuiteTask hg hts hconv hr hi (hfree _ hr) hcov.report.contains
    rcases List.mem_pair.mp ht with rfl | rfl
    · have hfollow : (pass.reportTask inputs (pass.reportsRoot b)).followConvention pass.convention =
          pass.reportTask inputs (pass.reportsRoot b) := by
        simp only [reportTask, Task.followConvention, Report.follow_follow]
      rw [hq, hfollow]
    · exact absurd hname.symm (reportTaskName_ne_verificationTaskName _ _)
  · obtain ⟨t, ht, hname, hq⟩ :=
      task?_of_isSuiteTask hg hts hconv hv hi (hfree _ hv) hcov.verification.contains
    rcases List.mem_pair.mp ht with rfl | rfl
    · exact absurd hname (reportTaskName_ne_verificationTaskName _ _)
    · rw [hq]
      rfl

/-- Each suite's tasks go by its own data, and its reports to its own part of the reports directory. -/
theorem suiteTasks_of_configure {created : List String} (hp : Built p)
    (h : pass.configure p = (q, .ok (.configured created))) {suite : String}
    (hm : suite ∈ p.derivedSuites) :
    ∃ s data, p.suites.find? suite = some s ∧ s.executionData = some data ∧
      q.task? (reportTaskName suite) = some (pass.reportTask ⟨suite, data, mainSourceSet⟩
        (Path.join p.buildDir pass.reportsDir)) ∧
      q.task? (verificationTaskName suite) = some (verificationTask ⟨suite, data, mainSourceSet⟩) := by
  have hw := hp.reachable.wellFormed
  have hneeds := configurable_of_configure hp h
  obtain ⟨hc, hd⟩ := hw.mem_derivedSuites.mp hm
  have hcov := covers_of_configure hw h hc hd
  obtain ⟨a, b, _, ha, hb, hq⟩ := configure_eq_configured h
  have hpb := continues_of_adjustAll ha hb
  have hfree : ∀ name ∈ suiteTaskNames suite, b.task? name = none := fun name hn =>
    task?_eq_none_of_adjustAll ha hb hn
      (hp.task?_eq_none (hneeds.names suite hc hd name hn) (not_mem_builtinTaskNames hn))
  obtain ⟨s, hs⟩ := Option.isSome_iff_exists.mp hc
  obtain ⟨data, hdata⟩ := Option.isSome_iff_exists.mp (hneeds.data suite s hs)
  have hi : suiteInputs b suite = .ok ⟨suite, data, mainSourceSet⟩ :=
    suiteInputs_of_data (by rw [hpb.suites, hs]) hdata (by rw [hpb.sourceSets, hw.main])
  obtain ⟨hbe, _⟩ := Toolchain.adjustAll_ok hb
  have hconv : b.convention = some pass.convention := by
    have hconv := convention_of_activate ha
    rw [hbe]
    exact hconv
  have hroot : pass.reportsRoot b = Path.join p.buildDir pass.reportsDir := by
    have hroot := reportsRoot_of_activate hp.uncovered ha
    rw [hbe]
    exact hroot
  obtain ⟨ts, hg, hts, _⟩ := pass.synthesizeAll_grows p.derivedSuites b
  rw [hq] at hg
  rw [← hroot]
  exact ⟨s, data, hs, hdata, suiteTasks_of_isSuiteTask hg hts hconv hi hfree hcov⟩

/-- A pass on a project as settings make it succeeds exactly if it finds what it needs, and then gives
every suite its coverage tasks. -/
theorem first_pass_exact {c : Context} {spec : Settings.Project}
    (hb : Workspace.buildProject c spec = .ok p) (he : pass.policy.isEligible p.path) :
    ((∃ created, (pass.configure p).2 = .ok (.configured created)) ↔ pass.Configurable p) ∧
    ∀ q created, pass.configure p = (q, .ok (.configured created)) →
      ∃ suites : List String, suites.Pairwise Text.BytesBefore ∧
        (∀ suite, suite ∈ suites ↔ p.suites.contains suite ∧ suite ≠ defaultSuite) ∧
        created = suites.flatMap (fun suite => [reportTaskName suite, verificationTaskName suite]) ∧
        q.tasks.names = p.tasks.names ++ [defaultReportTask, defaultVerificationTask] ++ created ∧
        q.HoldsHostTasks ∧
        ∀ suite ∈ suites, ∃ s data, p.suites.find? suite = some s ∧ s.executionData = some data ∧
          (∃ t r, q.task? (reportTaskName suite) = some t ∧ t.action = .report r ∧
            r.inputs = ⟨suite, data, mainSourceSet⟩ ∧
            ∀ f, (r.outputs.find? f).map (·.location) = some
              (f.location (Path.join p.buildDir pass.reportsDir) suite (reportTaskName suite))) ∧
          ∃ t, q.task? (verificationTaskName suite) = some t ∧
            t.action = .verification ⟨suite, data, mainSourceSet⟩ := by
  have hp := Built.of_buildProject hb
  have hw := hp.reachable.wellFormed
  refine ⟨⟨?_, fun h => ⟨_, h.configure hp he⟩⟩, ?_⟩
  · rintro ⟨created, h⟩
    exact configurable_of_configure hp (Prod.ext rfl h)
  · intro q created h
    have hneeds := configurable_of_configure hp h
    have hcreated : created = p.derivedSuites.flatMap suiteTaskNames := by
      have hr := hneeds.configure hp he
      rw [h] at hr
      exact CoverageOutcome.configured.inj (Except.ok.inj hr)
    have hhost := names_enabledTasks_of_free (Path.join p.buildDir pass.reportsDir) hw hp.uncovered
      fun name hn => hp.task?_eq_none (hneeds.host name hn) (not_mem_builtinTaskNames_of_host hn)
    have hne : p.enabledTasks (Path.join p.buildDir pass.reportsDir) ≠ [] := by
      intro e
      rw [e] at hhost
      cases hhost
    refine ⟨p.derivedSuites, hw.derivedSuites_bytesBefore, fun suite => hw.mem_derivedSuites,
      hcreated, ?_, holdsHostTasks_of_configure h hne, fun suite hm => ?_⟩
    · rw [names_configure h, hhost]
      rfl
    · obtain ⟨s, data, hs, hdata, hreport, hverification⟩ := suiteTasks_of_configure hp h hm
      exact ⟨s, data, hs, hdata,
        ⟨_, _, hreport, rfl, rfl, Report.location_below_follow _ _ _ _ pass.convention⟩,
        _, hverification, rfl⟩

/-- A workspace without settings of its own. -/
def sampleContext : Context := .new "/work" {} {} ⟨"org.a", "org.b", .empty⟩

/-- A project with one suite next to the default one. -/
def sampleSpec : Settings.Project where
  path := ":model"
  suites := [{ name := "slow", executionData := some "slow.exec" }]

/-- The sample meets the needs of a pass, and gains the tasks of the default suite before those of its
own. -/
theorem first_pass_exact_sample :
    ∃ p, Workspace.buildProject sampleContext sampleSpec = .ok p ∧
      CoveragePass.sample.policy.isEligible p.path ∧ CoveragePass.sample.Configurable p ∧
      (CoveragePass.sample.configure p).1.tasks.names =
        p.tasks.names ++ [defaultReportTask, defaultVerificationTask] ++
          ["coverage-report-slow", "coverage-verification-slow"] := by
  have hrun : (Workspace.buildProject sampleContext sampleSpec).toOption.map (fun p =>
      (CoveragePass.sample.policy.isEligible p.path, (CoveragePass.sample.configure p).2)) =
        some (true, .ok (.configured ["coverage-report-slow", "coverage-verification-slow"])) := by
    decide
  cases hb : Workspace.buildProject sampleContext sampleSpec with
  | error fault =>
    rw [hb] at hrun
    cases hrun
  | ok p =>
    rw [hb] at hrun
    obtain ⟨he, hr⟩ := Prod.mk.inj (Option.some.inj hrun)
    have h := first_pass_exact hb he
    obtain ⟨_, _, _, _, hnames, _⟩ := h.2 _ _ (Prod.ext rfl hr)
    exact ⟨p, rfl, he, h.1.mp ⟨_, hr⟩, hnames⟩

end BuildGraph.CoveragePass
