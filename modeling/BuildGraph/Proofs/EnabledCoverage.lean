import BuildGraph.Proofs.CoveredSuites

/-!
# Projects with coverage in full

Coverage in full is the capability, the settings and the default suite's coverage tasks. Settings never
come without the other two. The capability may come alone, though: it can be applied like any other, and
enabling coverage takes it for a sign that nothing is left to do. A pass then calls a project configured
that has neither settings nor tasks for the default suite; on all other projects it keeps its word.
-/

namespace BuildGraph

namespace Project

variable {p q r : Project}

/-- Whether a project has coverage in full. -/
structure FullyCovered (p : Project) : Prop where
  capability : p.has .coverage
  settings : p.coverage.isSome
  tasks : p.HoldsHostTasks

/-- Whether a project has as much coverage as another one. -/
structure KeepsCoverage (p q : Project) : Prop where
  capability : q.has .coverage = p.has .coverage
  settings : q.coverage.isSome = p.coverage.isSome
  tasks : p.HoldsHostTasks → q.HoldsHostTasks

namespace KeepsCoverage

theorem refl (p : Project) : p.KeepsCoverage p := ⟨rfl, rfl, id⟩

theorem trans (h : p.KeepsCoverage q) (h' : q.KeepsCoverage r) : p.KeepsCoverage r where
  capability := h'.capability.trans h.capability
  settings := h'.settings.trans h.settings
  tasks := h'.tasks ∘ h.tasks

/-- What keeps the outlines of coverage tasks keeps the coverage, if the capability and the
settings stay. -/
theorem of_continues (h : p.Continues q) (hcap : q.has .coverage = p.has .coverage)
    (hcov : q.coverage.isSome = p.coverage.isSome) : p.KeepsCoverage q where
  capability := hcap
  settings := hcov
  tasks hp := hp.continues h

/-- More tasks take no coverage away. -/
theorem of_grows {ts : List Task} (h : p.Grows q ts) : p.KeepsCoverage q := by
  refine of_continues (.of_grows h) ?_ ?_
  · rw [has, h.capabilities, has]
  · rw [h.coverage]

/-- Coverage in full stays in full. -/
theorem fullyCovered (h : p.KeepsCoverage q) (hp : p.FullyCovered) : q.FullyCovered where
  capability := h.capability.trans hp.capability
  settings := h.settings.trans hp.settings
  tasks := h.tasks hp.tasks

end KeepsCoverage

/-! ## What operations do to coverage -/

/-- Enabling coverage on a project that has the capability does nothing; any other project gets coverage
in full. -/
theorem coverage_of_enableCoverage {reportsDir : String} (hp : p.WellFormed)
    (h : p.enableCoverage reportsDir = .ok q) :
    p.has .coverage ∧ q = p ∨
      p.has .coverage = false ∧ q.FullyCovered ∧ q.coverage = some ⟨none, reportsDir⟩ := by
  cases hc : p.has .coverage with
  | true =>
    rw [enableCoverage_of_has hc] at h
    exact Or.inl ⟨rfl, (Except.ok.inj h).symm⟩
  | false =>
    obtain ⟨s, data, hs, hdata⟩ := hp.default_data
    have hd : (p.suites.find? defaultSuite).bind (·.executionData) = some data := by
      rw [hs, Option.bind_some, hdata]
    have htasks := enableCoverage_holds h hc hd
    rw [enableCoverage_of_not_has hc] at h
    obtain ⟨m, _, rfl⟩ := except_map_ok h
    have hcap : (m.withCoverage reportsDir).has .coverage := by
      refine (m.has_add _ _).trans ?_
      rw [decide_eq_true rfl, Bool.true_or]
    exact Or.inr ⟨rfl, ⟨hcap, rfl, htasks⟩, rfl⟩

/-- A suite takes no coverage away and brings none. -/
theorem keepsCoverage_addSuite {name : String} {file sourceSet : Option String}
    (h : p.addSuite name file sourceSet = .ok q) : p.KeepsCoverage q := by
  obtain ⟨_, _, m, suite, hg, _, rfl⟩ := addSuite_ok h
  have hm := KeepsCoverage.of_grows hg
  exact ⟨hm.capability, hm.settings, fun ht => ⟨(hm.tasks ht).report, (hm.tasks ht).verification⟩⟩

/-- A capability leaves the tasks of the default suite where they are. -/
theorem holdsHostTasks_apply (c : Capability) (h : p.HoldsHostTasks) : (p.apply c).HoldsHostTasks := by
  obtain ⟨ts, ht, _⟩ := p.tasks_apply c
  have hcont : ∀ {name suite kind}, p.Holds name kind suite → (p.apply c).Holds name kind suite := by
    rintro name suite kind ⟨t, hfound, hs⟩
    refine ⟨t, ?_, hs⟩
    have hget : (p.apply c).task? name = (p.task? name).or (ts.find? (·.name == name)) :=
      TaskGraph.get?_of_append ht name
    rw [hget, hfound, Option.some_or]
  exact ⟨hcont h.report, hcont h.verification⟩

/-- A capability other than coverage takes no coverage away and brings none. -/
theorem keepsCoverage_apply {c : Capability} (hc : c ≠ .coverage) : p.KeepsCoverage (p.apply c) where
  capability := by rw [has_apply, decide_eq_false hc.symm, Bool.false_or]
  settings := rfl
  tasks := holdsHostTasks_apply c

/-- A task that is registered by hand takes no coverage away and brings none. -/
theorem keepsCoverage_register {t : Task} (h : p.register t = .ok q) : p.KeepsCoverage q := by
  refine .of_continues (continues_register h) ?_ ?_ <;>
  · rw [register_eq] at h
    obtain ⟨_, _, rfl⟩ := except_map_ok (except_mapError_ok h)
    rfl

/-- A convention changes what is required, not what is covered. -/
theorem keepsCoverage_configureReports (p : Project) (convention : ReportConvention) :
    p.KeepsCoverage (p.configureReports convention) := by
  have hc := Continues.of_mapTasks p (f := (·.followConvention convention))
    (Task.outline?_followConvention · convention)
  have hk : p.KeepsCoverage { p with tasks := p.tasks.mapTasks (·.followConvention convention) } :=
    .of_continues hc rfl rfl
  exact ⟨rfl, rfl, fun ht => ⟨(hk.tasks ht).report, (hk.tasks ht).verification⟩⟩

end Project

namespace CoveragePass

open Project

variable {pass : CoveragePass} {p q a : Project}

/-- Finishing an activation pins the version of settings that are there, and makes none. -/
theorem keepsCoverage_finishActivation (pass : CoveragePass) (p : Project) (version : String) :
    p.KeepsCoverage (pass.finishActivation p version) := by
  refine .of_continues (pass.continues_finishActivation p version) ?_ ?_
  · refine (p.has_add .coverage .coverageAggregation).trans ?_
    rw [decide_eq_false (by decide), Bool.false_or]
  · exact Option.isSome_map

/-- Activation keeps what coverage there is or gives it in full, with the version of the agent. -/
theorem coverage_of_activate (hp : p.WellFormed) (h : pass.activate p = .ok a) :
    ∃ version, pass.catalog.version pass.toolVersionKey = .ok version ∧
      (∀ extension, a.coverage = some extension → extension.toolVersion = some version) ∧
      (p.has .coverage ∧ p.KeepsCoverage a ∨ p.has .coverage = false ∧ a.FullyCovered) := by
  obtain ⟨version, m, hv, hm, rfl⟩ := activate_ok h
  have hk := pass.keepsCoverage_finishActivation m version
  refine ⟨version, hv, ?_, ?_⟩
  · intro extension he
    obtain ⟨c, _, rfl⟩ := Option.map_eq_some_iff.mp he
    rfl
  · rcases coverage_of_enableCoverage hp hm with ⟨hc, rfl⟩ | ⟨hc, hfull, _⟩
    · exact Or.inl ⟨hc, hk⟩
    · exact Or.inr ⟨hc, hk.fullyCovered hfull⟩

/-- Toolchains do not touch coverage, even if they do not get through. -/
theorem keepsCoverage_adjustAll (ts : List Toolchain) (p : Project) :
    p.KeepsCoverage (Toolchain.adjustAll ts p).1 := by
  rw [Toolchain.adjustAll_eq]
  exact .of_continues (Toolchain.continues_adjusted _ p) rfl rfl

/-- The coverage of the default suite does not depend on what comes of the others. -/
theorem keepsCoverage_synthesizeAll (pass : CoveragePass) (suites : List String) (p : Project) :
    p.KeepsCoverage (pass.synthesizeAll suites p).1 := by
  obtain ⟨ts, hg, _⟩ := pass.synthesizeAll_grows suites p
  exact .of_grows hg

/-- A pass keeps what coverage there is or gives it in full, also if it fails. -/
theorem coverage_of_configure (pass : CoveragePass) (hp : p.WellFormed) :
    p.KeepsCoverage (pass.configure p).1 ∨ (pass.configure p).1.FullyCovered := by
  have hactive : ∀ {a q}, pass.activate p = .ok a → a.KeepsCoverage q →
      p.KeepsCoverage q ∨ q.FullyCovered := by
    intro a q ha hq
    obtain ⟨_, _, _, ⟨_, hk⟩ | ⟨_, hfull⟩⟩ := coverage_of_activate hp ha
    · exact Or.inl (hk.trans hq)
    · exact Or.inr (hq.fullyCovered hfull)
  cases pass.progress p with
  | skipped h =>
    rw [configure_of_not_isEligible h]
    exact Or.inl (.refl p)
  | stopped fault he h =>
    rw [configure_of_activate_error he h]
    exact Or.inl (.refl p)
  | unadjusted a b fault he ha h =>
    have hb := keepsCoverage_adjustAll a.toolchains a
    rw [h] at hb
    rw [configure_of_adjustAll_error he ha h]
    exact hactive ha hb
  | adjusted a b he ha h =>
    have hb := keepsCoverage_adjustAll a.toolchains a
    rw [h] at hb
    rw [configure_of_adjustAll he ha h]
    exact hactive ha (hb.trans (pass.keepsCoverage_synthesizeAll _ b))

end CoveragePass

namespace Project

variable {p q : Project}

/-- Every operation but the bare capability keeps what coverage there is or gives it in full. -/
theorem coverage_run {operation : Operation} (hp : p.WellFormed)
    (hne : operation ≠ .apply .coverage) :
    p.KeepsCoverage (operation.run p) ∨ (operation.run p).FullyCovered := by
  have hattempted : ∀ {r : Except ProjectFault Project}, (∀ q, r = .ok q → p.KeepsCoverage q) →
      p.KeepsCoverage (p.attempted r) := of_attempted (.refl p)
  cases operation with
  | addSuite name file sourceSet => exact Or.inl (hattempted fun q h => keepsCoverage_addSuite h)
  | apply c =>
    refine Or.inl (keepsCoverage_apply fun hc => hne ?_)
    rw [hc]
  | enableCoverage reportsDir =>
    cases h : p.enableCoverage reportsDir with
    | error fault =>
      rw [Operation.run, h]
      exact Or.inl (.refl p)
    | ok q =>
      rw [Operation.run, h]
      rcases coverage_of_enableCoverage hp h with ⟨_, rfl⟩ | ⟨_, hfull, _⟩
      · exact Or.inl (.refl _)
      · exact Or.inr hfull
  | configureReports convention => exact Or.inl (p.keepsCoverage_configureReports convention)
  | register t => exact Or.inl (hattempted fun q h => keepsCoverage_register h)
  | configure pass => exact pass.coverage_of_configure hp
  | synthesize pass suite =>
    rw [Operation.run, attempted_synthesize]
    exact Or.inl (pass.keepsCoverage_synthesizeAll [suite] p)
  | editExecution task excludedLoaders properties =>
    exact Or.inl (.of_continues (p.continues_editExecution task _) rfl rfl)
  | editCoverage extension =>
    exact Or.inl ⟨rfl, Option.isSome_map, fun h => ⟨h.report, h.verification⟩⟩
  | relocate path buildDir => exact Or.inl ⟨rfl, rfl, fun h => ⟨h.report, h.verification⟩⟩
  | requestUberJar uberJar => exact Or.inl ⟨rfl, rfl, fun h => ⟨h.report, h.verification⟩⟩

/-- Settings never come without the capability and the default suite's coverage tasks. -/
theorem Reachable.fullyCovered_of_settings (h : p.Reachable) (hs : p.coverage.isSome) :
    p.FullyCovered := by
  induction h with
  | fresh path buildDir => cases hs
  | @run p operation hr ih =>
    by_cases hb : operation = .apply .coverage
    · subst hb
      have hfull := ih hs
      refine ⟨?_, hs, holdsHostTasks_apply _ hfull.tasks⟩
      exact (p.has_apply _ _).trans (by rw [decide_eq_true rfl, Bool.true_or])
    · rcases coverage_run hr.wellFormed hb with hk | hfull
      · exact hk.fullyCovered (ih (hk.settings.symm.trans hs))
      · exact hfull

/-- Operations other than the bare capability never leave the capability alone. -/
theorem fullyCovered_of_operations {operations : List Operation} (hr : p.Reachable)
    (hp : p.has .coverage → p.FullyCovered)
    (hb : ∀ operation ∈ operations, operation ≠ .apply .coverage)
    (hc : (operations.foldl Operation.run p).has .coverage) :
    (operations.foldl Operation.run p).FullyCovered := by
  induction operations generalizing p with
  | nil => exact hp hc
  | cons operation operations ih =>
    refine ih (.run operation hr) (fun hc => ?_) (fun o ho => hb o (List.mem_cons_of_mem _ ho)) hc
    rcases coverage_run hr.wellFormed (hb operation (List.mem_cons_self ..)) with hk | hfull
    · exact hk.fullyCovered (hp (hk.capability.symm.trans hc))
    · exact hfull

end Project

namespace CoveragePass

open Project

variable {pass : CoveragePass} {p q : Project}

/-- A configured project has the settings, with the agent's version, and the default suite's coverage
tasks exactly if it did not have the capability without the settings before. -/
theorem configured_fullyCovered_iff {created : List String} (hp : p.Reachable)
    (h : pass.configure p = (q, .ok (.configured created))) :
    ((∃ version extension, pass.catalog.version pass.toolVersionKey = .ok version ∧
        q.coverage = some extension ∧ extension.toolVersion = some version) ∧ q.HoldsHostTasks) ↔
      (p.has .coverage → p.coverage.isSome) := by
  obtain ⟨a, b, _, ha, hb, hq⟩ := configure_eq_configured h
  obtain ⟨rfl, _⟩ := Toolchain.adjustAll_ok hb
  obtain ⟨ts, hg, _⟩ := pass.synthesizeAll_grows p.derivedSuites (Toolchain.adjusted a.toolchains a)
  rw [hq] at hg
  have haq : a.KeepsCoverage q := by
    have hab := keepsCoverage_adjustAll a.toolchains a
    rw [hb] at hab
    exact hab.trans (.of_grows hg)
  have hcov : q.coverage = a.coverage := hg.coverage
  obtain ⟨version, hv, hpinned, hactive⟩ := coverage_of_activate hp.wellFormed ha
  have hfull : a.FullyCovered → (∃ version extension,
      pass.catalog.version pass.toolVersionKey = .ok version ∧ q.coverage = some extension ∧
        extension.toolVersion = some version) ∧ q.HoldsHostTasks := by
    intro hfull
    obtain ⟨extension, he⟩ := Option.isSome_iff_exists.mp hfull.settings
    exact ⟨⟨version, extension, hv, hcov.trans he, hpinned extension he⟩, haq.tasks hfull.tasks⟩
  constructor
  · rintro ⟨⟨_, extension, _, he, _⟩, _⟩ hc
    rcases hactive with ⟨_, hk⟩ | ⟨hn, _⟩
    · rw [← hk.settings, ← hcov, he]
      rfl
    · rw [hn] at hc
      cases hc
  · intro hs
    rcases hactive with ⟨hc, hk⟩ | ⟨_, ha⟩
    · exact hfull (hk.fullyCovered (hp.fullyCovered_of_settings (hs hc)))
    · exact hfull ha

/-- After the pass the sample's default suite has its tasks, and the settings name the agent's version. -/
theorem sample_fullyCovered :
    (CoveragePass.sample.configure Project.sample).1.HoldsHostTasks ∧
      ∃ extension, (CoveragePass.sample.configure Project.sample).1.coverage = some extension ∧
        extension.toolVersion = some "0.8.8" := by
  have hr : (CoveragePass.sample.configure Project.sample).2 =
      .ok (.configured ["coverage-report-slow", "coverage-verification-slow"]) := by decide
  have h := configured_fullyCovered_iff reachable_sample (Prod.ext rfl hr)
  obtain ⟨⟨version, extension, hv, he, hpinned⟩, htasks⟩ := h.mpr fun hc => by cases hc
  have hversion : CoveragePass.sample.catalog.version CoveragePass.sample.toolVersionKey =
      .ok "0.8.8" := by decide
  obtain rfl := Except.ok.inj (hversion.symm.trans hv)
  exact ⟨htasks, extension, he, hpinned⟩

/-- A project to which nothing but the capability has been applied is called configured and has neither
settings nor coverage tasks. -/
theorem bare_capability_not_covered :
    ((Project.fresh ":model" "build").apply .coverage).Reachable ∧
      (CoveragePass.sample.configure ((Project.fresh ":model" "build").apply .coverage)).2 =
        .ok (.configured []) ∧
      (CoveragePass.sample.configure ((Project.fresh ":model" "build").apply .coverage)).1.coverage =
        none ∧
      ∀ name ∈ hostTaskNames,
        (CoveragePass.sample.configure ((Project.fresh ":model" "build").apply .coverage)).1.task? name =
          none := by
  refine ⟨.run (.apply .coverage) (.fresh ":model" "build"), ?_, ?_, ?_⟩ <;> decide

end CoveragePass

end BuildGraph
