import BuildGraph.Proofs.Adjustment
import BuildGraph.Proofs.Synthesis

/-!
# The steps of a pass

A pass enables coverage, adjusts to toolchains and processes suites, and stops at the first step that
fails. Whatever the outcome, the project keeps its suites, its source sets and the outline of every
task that it had.
-/

namespace BuildGraph.CoveragePass

open Project

variable {pass : CoveragePass} {p a b : Project}

/-- A project that the policy leaves out is not touched. -/
theorem configure_of_not_isEligible (h : pass.policy.isEligible p.path = false) :
    pass.configure p = (p, .ok .skipped) := by
  rw [configure, h]
  rfl

/-- A pass that cannot activate coverage leaves the project as it was. -/
theorem configure_of_activate_error {fault : CoverageFault} (he : pass.policy.isEligible p.path)
    (h : pass.activate p = .error fault) : pass.configure p = (p, .error fault) := by
  rw [configure, he, h]
  rfl

/-- A pass that stops at a toolchain leaves what it has done so far, and processes no suite. -/
theorem configure_of_adjustAll_error {fault : ProjectFault} (he : pass.policy.isEligible p.path)
    (ha : pass.activate p = .ok a) (h : Toolchain.adjustAll a.toolchains a = (b, .error fault)) :
    pass.configure p = (b, .error (.project fault)) := by
  simp only [configure, he, ha, h]
  rfl

/-- The outcome of processing suites is the outcome of the pass. -/
theorem configure_of_adjustAll (he : pass.policy.isEligible p.path) (ha : pass.activate p = .ok a)
    (h : Toolchain.adjustAll a.toolchains a = (b, .ok ())) :
    pass.configure p = ((pass.synthesizeAll b.derivedSuites b).1,
      ((pass.synthesizeAll b.derivedSuites b).2.mapError .project).map .configured) := by
  simp only [configure, he, ha, h]
  rcases pass.synthesizeAll b.derivedSuites b with ⟨q, fault | created⟩ <;> rfl

/-- How far a pass gets on a project. -/
inductive Progress (pass : CoveragePass) (p : Project) : Prop where
  | skipped (h : pass.policy.isEligible p.path = false)
  | stopped (fault : CoverageFault) (he : pass.policy.isEligible p.path)
    (h : pass.activate p = .error fault)
  | unadjusted (a b : Project) (fault : ProjectFault) (he : pass.policy.isEligible p.path)
    (ha : pass.activate p = .ok a) (h : Toolchain.adjustAll a.toolchains a = (b, .error fault))
  | adjusted (a b : Project) (he : pass.policy.isEligible p.path) (ha : pass.activate p = .ok a)
    (h : Toolchain.adjustAll a.toolchains a = (b, .ok ()))

/-- Every pass on a project is in one of the four cases. -/
theorem progress (pass : CoveragePass) (p : Project) : pass.Progress p := by
  cases he : pass.policy.isEligible p.path with
  | false => exact .skipped he
  | true =>
    cases ha : pass.activate p with
    | error fault => exact .stopped fault he ha
    | ok a =>
      rcases h : Toolchain.adjustAll a.toolchains a with ⟨b, fault | ⟨⟩⟩
      · exact .unadjusted a b fault he ha h
      · exact .adjusted a b he ha h

/-- Up to the suites, a pass keeps the outlines of all earlier coverage tasks. -/
theorem continues_of_adjustAll {r : Except ProjectFault Unit} (ha : pass.activate p = .ok a)
    (h : Toolchain.adjustAll a.toolchains a = (b, r)) : p.Continues b := by
  have hb := Toolchain.continues_adjustAll a.toolchains a
  rw [h] at hb
  exact (continues_activate ha).trans hb

/-- What activation brings and the later steps keep holds after a pass, however far it gets. -/
theorem of_configure {P : Project → Prop} (hp : P p) (hactivate : ∀ {a}, pass.activate p = .ok a → P a)
    (hadjust : ∀ {a} ts, P a → P (Toolchain.adjustAll ts a).1)
    (hsynthesize : ∀ {b} suites, P b → P (pass.synthesizeAll suites b).1) : P (pass.configure p).1 := by
  have hadjusted : ∀ {a b r}, pass.activate p = .ok a → Toolchain.adjustAll a.toolchains a = (b, r) →
      P b := by
    intro a b r ha h
    have hb := hadjust a.toolchains (hactivate ha)
    rwa [h] at hb
  cases pass.progress p with
  | skipped h =>
    rw [configure_of_not_isEligible h]
    exact hp
  | stopped fault he h =>
    rw [configure_of_activate_error he h]
    exact hp
  | unadjusted a b fault he ha h =>
    rw [configure_of_adjustAll_error he ha h]
    exact hadjusted ha h
  | adjusted a b he ha h =>
    rw [configure_of_adjustAll he ha h]
    exact hsynthesize _ (hadjusted ha h)

/-- A pass disturbs nothing that a project had, also if it fails. -/
theorem continues_configure (pass : CoveragePass) (p : Project) : p.Continues (pass.configure p).1 :=
  of_configure (P := p.Continues) (.refl p) continues_activate
    (fun ts h => h.trans (Toolchain.continues_adjustAll ts _))
    (fun suites h => h.trans (pass.continues_synthesizeAll suites _))

/-- A pass that configures a project has done all its steps. -/
theorem configure_eq_configured {q : Project} {created : List String}
    (h : pass.configure p = (q, .ok (.configured created))) :
    ∃ a b, pass.policy.isEligible p.path ∧ pass.activate p = .ok a ∧
      Toolchain.adjustAll a.toolchains a = (b, .ok ()) ∧
      pass.synthesizeAll p.derivedSuites b = (q, .ok created) := by
  cases pass.progress p with
  | skipped hn =>
    rw [configure_of_not_isEligible hn] at h
    cases congrArg Prod.snd h
  | stopped fault he hn =>
    rw [configure_of_activate_error he hn] at h
    cases congrArg Prod.snd h
  | unadjusted a b fault he ha hn =>
    rw [configure_of_adjustAll_error he ha hn] at h
    cases congrArg Prod.snd h
  | adjusted a b he ha hb =>
    rw [configure_of_adjustAll he ha hb, (continues_of_adjustAll ha hb).derivedSuites] at h
    obtain ⟨hq, hr⟩ := Prod.mk.inj h
    obtain ⟨created', hs, hc⟩ := except_map_ok hr
    obtain rfl : created = created' := CoverageOutcome.configured.inj hc
    exact ⟨a, b, he, ha, hb, Prod.ext hq (except_mapError_ok hs)⟩

/-- A pass that takes a project in configures it if it succeeds. -/
theorem configured_of_isEligible {q : Project} {outcome : CoverageOutcome}
    (he : pass.policy.isEligible p.path) (h : pass.configure p = (q, .ok outcome)) :
    ∃ created, outcome = .configured created := by
  cases pass.progress p with
  | skipped hn =>
    rw [he] at hn
    cases hn
  | stopped fault _ hn =>
    rw [configure_of_activate_error he hn] at h
    cases congrArg Prod.snd h
  | unadjusted a b fault _ ha hn =>
    rw [configure_of_adjustAll_error he ha hn] at h
    cases congrArg Prod.snd h
  | adjusted a b _ ha hb =>
    rw [configure_of_adjustAll he ha hb] at h
    obtain ⟨created, _, hc⟩ := except_map_ok (congrArg Prod.snd h)
    exact ⟨created, hc⟩

/-- A pass skips a project exactly if the policy leaves it out. -/
theorem configure_eq_skipped_iff :
    (pass.configure p).2 = .ok .skipped ↔ pass.policy.isEligible p.path = false := by
  constructor
  · intro h
    rw [← Bool.not_eq_true]
    intro he
    obtain ⟨created, hc⟩ := configured_of_isEligible he (Prod.ext rfl h)
    cases hc
  · intro he
    rw [configure_of_not_isEligible he]

end BuildGraph.CoveragePass
