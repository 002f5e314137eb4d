import BuildGraph.Proofs.Reachable

/-!
# Every suite is covered

A pass that configures a project leaves no suite without its two coverage tasks: a name that another
task holds is a fault, never a reason to pass a suite over. New tasks come behind the old ones, and old
coverage tasks keep what they are computed from and where they report to. Other changes of old tasks,
such as the loaders that a test run excludes, are left open.
-/

namespace BuildGraph.CoveragePass

open Project

variable {pass : CoveragePass} {p q : Project} {created : List String}

/-- Behind the tasks of a configured project stand absent coverage tasks of the default suite, and then
those that are reported as created. -/
theorem names_configure (h : pass.configure p = (q, .ok (.configured created))) :
    q.tasks.names = p.tasks.names ++
      (p.enabledTasks (Path.join p.buildDir pass.reportsDir)).map (·.name) ++ created := by
  obtain ⟨a, b, _, ha, hb, hs⟩ := configure_eq_configured h
  obtain ⟨rfl, _⟩ := Toolchain.adjustAll_ok hb
  obtain ⟨ts, hg, _, hc⟩ :=
    pass.synthesizeAll_grows p.derivedSuites (Toolchain.adjusted a.toolchains a)
  rw [hs] at hg hc
  rw [hg.names, Toolchain.names_adjusted, names_activate ha, hc created rfl]

/-- A configured project holds whatever coverage tasks of the default suite it lacked. -/
theorem holdsHostTasks_of_configure (h : pass.configure p = (q, .ok (.configured created)))
    (hne : p.enabledTasks (Path.join p.buildDir pass.reportsDir) ≠ []) : q.HoldsHostTasks := by
  obtain ⟨a, b, _, ha, hb, hs⟩ := configure_eq_configured h
  have hab := Toolchain.continues_adjustAll a.toolchains a
  have hbq := pass.continues_synthesizeAll p.derivedSuites b
  rw [hb] at hab
  rw [hs] at hbq
  exact (activate_holds ha hne).continues (hab.trans hbq)

/-- After a pass that gets through, every suite but the default one has its report and its verification. -/
theorem covers_of_configure (hp : p.WellFormed) (h : pass.configure p = (q, .ok (.configured created)))
    {suite : String} (hc : p.suites.contains suite) (hs : suite ≠ defaultSuite) : Covers q suite := by
  obtain ⟨a, b, _, ha, hb, hq⟩ := configure_eq_configured h
  have hm : suite ∈ p.derivedSuites := hp.mem_derivedSuites.mpr ⟨hc, hs⟩
  have hr : (pass.synthesizeAll p.derivedSuites b).2 = .ok created := by rw [hq]
  have hcov := synthesizeAll_covers hr hm hs
  rwa [hq] at hcov

/-- No suite of a configured project is left uncovered, the tasks grow by what is reported, and coverage
tasks that were there keep their outline. -/
theorem configured_suites_covered (hp : p.Reachable)
    (h : pass.configure p = (q, .ok (.configured created))) :
    (∀ suite, p.suites.contains suite → suite ≠ defaultSuite →
      (∃ t r, q.task? (reportTaskName suite) = some t ∧ t.action = .report r ∧
        r.inputs.suite = suite) ∧
      ∃ t inputs, q.task? (verificationTaskName suite) = some t ∧ t.action = .verification inputs ∧
        inputs.suite = suite) ∧
    (∃ host, q.tasks.names = p.tasks.names ++ host ++ created ∧ host.Sublist hostTaskNames ∧
      (∀ name ∈ host, p.tasks.contains name = false) ∧ (host ≠ [] → q.HoldsHostTasks)) ∧
    ∀ name t o, p.task? name = some t → t.outline? = some o →
      ∃ u, q.task? name = some u ∧ u.outline? = some o := by
  refine ⟨?_, ?_, ?_⟩
  · intro suite hc hs
    have hcov := covers_of_configure hp.wellFormed h hc hs
    exact ⟨holds_report_iff.mp hcov.report, holds_verification_iff.mp hcov.verification⟩
  · refine ⟨_, names_configure h, p.names_enabledTasks_sublist _, ?_, ?_⟩
    · intro name hn
      obtain ⟨t, ht, rfl⟩ := List.mem_map.mp hn
      exact contains_of_mem_enabledTasks ht
    · intro hne
      exact holdsHostTasks_of_configure h fun e => hne (by rw [e, List.map_nil])
  · intro name t o ht ho
    have hcont := pass.continues_configure p
    rw [h] at hcont
    obtain ⟨u, hu, hut⟩ := hcont.outline ht
    exact ⟨u, hu, hut.trans ho⟩

/-- The report of the sample's suite is found under its name and reads the data of that suite. -/
theorem sample_slow_covered :
    (CoveragePass.sample.configure Project.sample).2 =
        .ok (.configured ["coverage-report-slow", "coverage-verification-slow"]) ∧
      ∃ t r, (CoveragePass.sample.configure Project.sample).1.task? "coverage-report-slow" = some t ∧
        t.action = .report r ∧ r.inputs.suite = "slow" := by
  have hr : (CoveragePass.sample.configure Project.sample).2 =
      .ok (.configured ["coverage-report-slow", "coverage-verification-slow"]) := by decide
  have h := configured_suites_covered reachable_sample (Prod.ext rfl hr)
  exact ⟨hr, (h.1 "slow" (by decide) (by decide)).1⟩

end BuildGraph.CoveragePass
