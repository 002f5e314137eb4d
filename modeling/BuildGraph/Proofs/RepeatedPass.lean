import BuildGraph.Proofs.Pass

/-!
# A pass that is repeated

Once a project is activated, activating it again by the same pass changes nothing, whatever is adjusted
or registered in between by that pass. A second pass therefore finds the project as the first one left
it, creates nothing, and stops where the first one stopped. This holds of every project; two passes
that differ may well undo what the other has done.
-/

namespace BuildGraph

/-- What a second pass makes of a project. -/
def CoverageOutcome.again : CoverageOutcome → CoverageOutcome
  | .skipped => .skipped
  | .configured _ => .configured []

namespace CoveragePass

open Project

variable {pass : CoveragePass} {p q a b : Project} {version : String}

/-! ## Nothing left to activate -/

/-- Whether activation with a version of the agent has nothing left to do. -/
structure Settled (pass : CoveragePass) (version : String) (p : Project) : Prop where
  coverage : p.has .coverage
  aggregation : p.has .coverageAggregation
  convention : p.convention = some pass.convention
  follows : ∀ t ∈ p.tasks.tasks, t.followConvention pass.convention = t
  pinned : ∀ c, p.coverage = some c → c.toolVersion = some version

/-- Enabling coverage leaves a project with the capability, whether or not it had it. -/
theorem has_coverage_of_enableCoverage {reportsDir : String} (h : p.enableCoverage reportsDir = .ok q) :
    q.has .coverage := by
  cases hc : p.has .coverage with
  | true =>
    rw [enableCoverage_of_has hc] at h
    obtain rfl := Except.ok.inj h
    exact hc
  | false =>
    rw [enableCoverage_of_not_has hc] at h
    obtain ⟨m, _, rfl⟩ := except_map_ok h
    have hadd : (m.withCoverage reportsDir).has .coverage =
        (decide (Capability.coverage = .coverage) || m.has .coverage) := m.has_add _ _
    rw [hadd, decide_eq_true rfl, Bool.true_or]

/-- A finished activation leaves nothing to do for another one. -/
theorem settled_finishActivation (pass : CoveragePass) (version : String) (h : p.has .coverage) :
    pass.Settled version (pass.finishActivation p version) where
  coverage := (p.has_add _ _).trans (by rw [h, Bool.or_true])
  aggregation := (p.has_add _ _).trans (by rw [decide_eq_true rfl, Bool.true_or])
  convention := rfl
  follows t ht := by
    obtain ⟨u, _, rfl⟩ := List.mem_map.mp ht
    rw [Task.keepName_followConvention, Task.followConvention_followConvention]
  pinned c hc := by
    obtain ⟨d, _, rfl⟩ := Option.map_eq_some_iff.mp hc
    rfl

/-- An activation leaves nothing to do for another one with the version that it found in the catalog. -/
theorem settled_of_activate (h : pass.activate p = .ok a) :
    ∃ version, pass.catalog.version pass.toolVersionKey = .ok version ∧ pass.Settled version a := by
  obtain ⟨version, m, hv, hm, rfl⟩ := activate_ok h
  exact ⟨version, hv, pass.settled_finishActivation version (has_coverage_of_enableCoverage hm)⟩

/-- Finishing an activation that is settled changes nothing. -/
theorem Settled.finishActivation_eq (h : pass.Settled version p) :
    pass.finishActivation p version = p := by
  have hcap : p.capabilities.add .coverageAggregation = p.capabilities :=
    SortedSet.add_of_contains h.aggregation
  have htasks : p.tasks.mapTasks (·.followConvention pass.convention) = p.tasks :=
    TaskGraph.mapTasks_eq_self fun t ht => by
      rw [Task.keepName_followConvention, h.follows t ht]
  have hcov : (p.coverage.map fun c => { c with toolVersion := some version }) = p.coverage := by
    cases hc : p.coverage with
    | none => rfl
    | some c => rw [Option.map_some, ← h.pinned c hc]
  have hfinish : pass.finishActivation p version =
      { p with
        capabilities := p.capabilities.add .coverageAggregation
        tasks := p.tasks.mapTasks (·.followConvention pass.convention)
        coverage := p.coverage.map fun c => { c with toolVersion := some version }
        convention := some pass.convention } := rfl
  rw [hfinish, hcap, htasks, hcov, ← h.convention]

/-- With the same version in the catalog, activating again changes nothing. -/
theorem Settled.activate (h : pass.Settled version p)
    (hv : pass.catalog.version pass.toolVersionKey = .ok version) : pass.activate p = .ok p := by
  rw [activate_of_enableCoverage hv (enableCoverage_of_has h.coverage), h.finishActivation_eq]

/-- Adjusting to toolchains leaves nothing to activate. -/
theorem Settled.adjusted (h : pass.Settled version p) (ts : List Toolchain) :
    pass.Settled version (Toolchain.adjusted ts p) := by
  refine ⟨h.coverage, h.aggregation, h.convention, fun t ht => ?_, h.pinned⟩
  rw [Toolchain.tasks_adjusted] at ht
  obtain ⟨u, hu, rfl⟩ := List.mem_map.mp ht
  exact Toolchain.followConvention_adjustTask (h.follows u hu)

/-- Processing suites leaves nothing to activate, since report tasks are registered by convention. -/
theorem Settled.synthesizeAll (h : pass.Settled version p) (suites : List String) :
    pass.Settled version (pass.synthesizeAll suites p).1 := by
  obtain ⟨ts, hg, ht, _⟩ := pass.synthesizeAll_grows suites p
  refine ⟨?_, ?_, hg.convention.trans h.convention, fun t hm => ?_, ?_⟩
  · rw [has, hg.capabilities]
    exact h.coverage
  · rw [has, hg.capabilities]
    exact h.aggregation
  · rw [hg.tasks] at hm
    rcases List.mem_append.mp hm with hm | hm
    · exact h.follows t hm
    · obtain ⟨_, _, _, _, _, hc⟩ := ht t hm
      obtain ⟨u, _, rfl⟩ := List.mem_map.mp hc
      rw [conform, h.convention]
      exact Task.followConvention_followConvention u pass.convention
  · rw [hg.coverage]
    exact h.pinned

/-! ## Nothing left to adjust -/

/-- What is registered for suites leaves nothing to adjust. -/
theorem adjustAll_synthesizeAll (pass : CoveragePass) (suites : List String) {ts : List Toolchain}
    (h : Toolchain.adjustAll ts a = (b, .ok ())) :
    Toolchain.adjustAll ts (pass.synthesizeAll suites b).1 =
      ((pass.synthesizeAll suites b).1, .ok ()) := by
  obtain ⟨rfl, hn⟩ := Toolchain.adjustAll_ok h
  obtain ⟨us, hg, hu, _⟩ := pass.synthesizeAll_grows suites (Toolchain.adjusted ts a)
  have hc := Continues.of_grows hg
  have hmissing : ∀ t ∈ ts,
      t.missing? (pass.synthesizeAll suites (Toolchain.adjusted ts a)).1 = none := by
    intro t ht
    obtain ⟨hgen, hclasses⟩ := Toolchain.missing?_eq_none_iff.mp (hn t ht)
    have ha := Toolchain.continues_adjusted ts a
    exact Toolchain.missing?_eq_none_iff.mpr
      ⟨hc.contains (ha.contains hgen), hc.contains (ha.contains hclasses)⟩
  rw [Toolchain.adjustAll_of_missing?_eq_none hmissing, Toolchain.adjusted_eq_self]
  intro t ht
  rw [hg.tasks] at ht
  rcases List.mem_append.mp ht with ht | ht
  · rw [Toolchain.tasks_adjusted] at ht
    obtain ⟨u, _, rfl⟩ := List.mem_map.mp ht
    exact Toolchain.adjustTask_adjustTask ts u
  · obtain ⟨suite, _, _, hname, inputs, _, hi⟩ := (hu t ht).inputs
    refine Toolchain.adjustTask_of_outline? ts ?_ fun e => ?_
    · rw [Task.coverageInputs?_eq, Option.map_eq_some_iff] at hi
      obtain ⟨o, ho, _⟩ := hi
      exact Option.isSome_of_eq_some ho
    · rw [e] at hname
      exact not_mem_suiteTaskNames suite (by decide) (by decide) hname

/-! ## The second pass -/

/-- Toolchains grant no capability while they adjust. -/
theorem capabilities_adjustAll (ts : List Toolchain) (p : Project) :
    (Toolchain.adjustAll ts p).1.capabilities = p.capabilities := by
  rw [Toolchain.adjustAll_eq]
  rfl

/-- Capabilities alone tell the toolchains of a project. -/
theorem toolchains_congr (h : q.capabilities = p.capabilities) : q.toolchains = p.toolchains := by
  rw [Project.toolchains, h, Project.toolchains]

/-- After activation and adjustment, whether it succeeds or not, nothing is left to activate. -/
theorem settled_of_adjustAll {r : Except ProjectFault Unit} (ha : pass.activate p = .ok a)
    (h : Toolchain.adjustAll a.toolchains a = (b, r)) :
    b.capabilities = a.capabilities ∧
      ∃ version, pass.catalog.version pass.toolVersionKey = .ok version ∧ pass.Settled version b := by
  obtain ⟨version, hv, hs⟩ := settled_of_activate ha
  have hb : b = (Toolchain.adjustAll a.toolchains a).1 := by rw [h]
  refine ⟨by rw [hb, capabilities_adjustAll], version, hv, ?_⟩
  rw [hb, Toolchain.adjustAll_eq]
  exact hs.adjusted _

/-- A second pass leaves a project as the first one left it, and ends as the first one did; what it
creates is nothing. -/
theorem configure_configure (pass : CoveragePass) (p : Project) :
    pass.configure (pass.configure p).1 =
      ((pass.configure p).1, (pass.configure p).2.map CoverageOutcome.again) := by
  cases pass.progress p with
  | skipped h =>
    rw [configure_of_not_isEligible h]
    exact configure_of_not_isEligible h
  | stopped fault he h =>
    rw [configure_of_activate_error he h]
    exact configure_of_activate_error he h
  | unadjusted a b fault he ha h =>
    obtain ⟨hcap, version, hv, hs⟩ := settled_of_adjustAll ha h
    have heb : pass.policy.isEligible b.path := by rwa [(continues_of_adjustAll ha h).path]
    have hagain := Toolchain.adjustAll_adjustAll a.toolchains a
    rw [h, ← toolchains_congr hcap] at hagain
    rw [configure_of_adjustAll_error he ha h]
    exact configure_of_adjustAll_error heb (hs.activate hv) hagain
  | adjusted a b he ha h =>
    obtain ⟨hcap, version, hv, hs⟩ := settled_of_adjustAll ha h
    have hsettled := hs.synthesizeAll b.derivedSuites
    have hcont := pass.continues_synthesizeAll b.derivedSuites b
    have heq : pass.policy.isEligible (pass.synthesizeAll b.derivedSuites b).1.path := by
      rwa [hcont.path, (continues_of_adjustAll ha h).path]
    obtain ⟨us, hg, _⟩ := pass.synthesizeAll_grows b.derivedSuites b
    have hagain := pass.adjustAll_synthesizeAll b.derivedSuites h
    rw [← toolchains_congr (hg.capabilities.trans hcap)] at hagain
    rw [configure_of_adjustAll he ha h]
    rw [configure_of_adjustAll heq (hsettled.activate hv) hagain, hcont.derivedSuites,
      synthesizeAll_synthesizeAll]
    cases (pass.synthesizeAll b.derivedSuites b).2 <;> rfl

end CoveragePass

end BuildGraph
