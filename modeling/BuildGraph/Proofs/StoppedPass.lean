import BuildGraph.Proofs.Reachable

/-!
# A pass that stops

A pass that skips a project, or fails before coverage is enabled, leaves the project alone. On a
reachable project it can otherwise fail only at a suite, and it leaves exactly the work for the suites
before that one: the project is the one that the steps for those suites give, none of which fails.
Which suite it is depends on byte order alone; nothing is said of a pass that succeeds.
-/

namespace BuildGraph.CoveragePass

open Project

variable {pass : CoveragePass} {p q a b : Project} {suite : String}

/-- Whether a fault is about the names of a suite's coverage tasks or about its data. -/
def Concerns (p : Project) (suite : String) (why : ProjectFault) : Prop :=
  (∃ name ∈ suiteTaskNames suite, why = .duplicateTask p.path name) ∨ why = .incompleteSuite p.path suite

/-- Whether a project is what a pass leaves that fails at a suite. -/
structure StoppedAt (pass : CoveragePass) (p q : Project) (suite : String) : Prop where
  /-- All that has been done is activation, adjustment and the suites before this one. -/
  processed : ∃ earlier a b created, earlier.Pairwise Text.BytesBefore ∧
    (∀ s, s ∈ earlier ↔ p.suites.contains s ∧ s ≠ defaultSuite ∧ Text.BytesBefore s suite) ∧
    pass.activate p = .ok a ∧ Toolchain.adjustAll a.toolchains a = (b, .ok ()) ∧
    pass.synthesizeAll earlier b = (q, .ok created)
  /-- Only the default suite and suites before this one have gained tasks. -/
  gained : ∀ t ∈ q.tasks.tasks, p.tasks.contains t.name = false →
    ∃ inputs, t.coverageInputs? = some inputs ∧
      ((inputs.suite = defaultSuite ∧ t.name ∈ hostTaskNames) ∨
        (p.suites.contains inputs.suite ∧ inputs.suite ≠ defaultSuite ∧
          Text.BytesBefore inputs.suite suite ∧ t.name ∈ suiteTaskNames inputs.suite))
  /-- A suite that has gained a task has both. -/
  paired : ∀ s, (∃ name ∈ suiteTaskNames s, q.tasks.contains name ∧ p.tasks.contains name = false) →
    Covers q s
  /-- The default suite has both if it has gained a task. -/
  hostPaired : (∃ name ∈ hostTaskNames, q.tasks.contains name ∧ p.tasks.contains name = false) →
    q.HoldsHostTasks

/-- The task that holds a name for a suite evaluates data of that suite. -/
theorem inputs_of_holds {name : String} {kind : CoverageKind} {t : Task} (h : p.Holds name kind suite)
    (ht : p.task? name = some t) : ∃ inputs, t.coverageInputs? = some inputs ∧ inputs.suite = suite := by
  obtain ⟨u, hu, hs⟩ := h
  obtain rfl : t = u := Option.some.inj (ht.symm.trans hu)
  obtain ⟨o, ho, _, hi⟩ := Task.suiteFor?_eq_some_iff.mp hs
  exact ⟨o.inputs, by rw [Task.coverageInputs?_eq, ho, Option.map_some], hi⟩

/-- The tasks of the default suite evaluate its own data. -/
theorem inputs_of_holdsHostTasks {t : Task} (h : p.HoldsHostTasks) (ht : t ∈ p.tasks.tasks)
    (hn : t.name ∈ hostTaskNames) :
    ∃ inputs, t.coverageInputs? = some inputs ∧ inputs.suite = defaultSuite := by
  have htask : p.task? t.name = some t := TaskGraph.get?_eq_some_iff.mpr ⟨ht, rfl⟩
  rcases List.mem_pair.mp hn with e | e
  · rw [e] at htask
    exact inputs_of_holds h.report htask
  · rw [e] at htask
    exact inputs_of_holds h.verification htask

/-- What activation and adjustment add are coverage tasks of the default suite, which has both then. -/
theorem gained_of_adjustAll (ha : pass.activate p = .ok a)
    (hb : Toolchain.adjustAll a.toolchains a = (b, .ok ())) {t : Task} (ht : t ∈ b.tasks.tasks)
    (hn : p.tasks.contains t.name = false) : t.name ∈ hostTaskNames ∧ b.HoldsHostTasks := by
  have hab := Toolchain.continues_adjustAll a.toolchains a
  rw [hb] at hab
  obtain ⟨hbe, _⟩ := Toolchain.adjustAll_ok hb
  have hnames : b.tasks.names = p.tasks.names ++
      (p.enabledTasks (Path.join p.buildDir pass.reportsDir)).map (·.name) := by
    rw [hbe, Toolchain.names_adjusted, names_activate ha]
  have hmem : t.name ∈ b.tasks.names := List.mem_map_of_mem ht
  rw [hnames] at hmem
  rcases List.mem_append.mp hmem with hmem | hmem
  · rw [TaskGraph.contains_iff_mem_names.mpr hmem] at hn
    cases hn
  · have hne : p.enabledTasks (Path.join p.buildDir pass.reportsDir) ≠ [] := by
      intro e
      rw [e] at hmem
      cases hmem
    exact ⟨(p.names_enabledTasks_sublist _).subset hmem, (activate_holds ha hne).continues hab⟩

/-- A project on which the suites before one have been processed is what a pass leaves that fails at
it. -/
theorem stoppedAt_of_synthesizeAll {earlier created : List String}
    (ho : earlier.Pairwise Text.BytesBefore)
    (hm : ∀ s, s ∈ earlier ↔ p.suites.contains s ∧ s ≠ defaultSuite ∧ Text.BytesBefore s suite)
    (ha : pass.activate p = .ok a) (hb : Toolchain.adjustAll a.toolchains a = (b, .ok ()))
    (hq : pass.synthesizeAll earlier b = (q, .ok created)) : pass.StoppedAt p q suite := by
  have hbq := pass.continues_synthesizeAll earlier b
  obtain ⟨ts, hg, hts, _⟩ := pass.synthesizeAll_grows earlier b
  rw [hq] at hbq hg
  -- A new task comes from activation, with both of its kind, or from an earlier suite.
  have hnew : ∀ t ∈ q.tasks.tasks, p.tasks.contains t.name = false →
      (t ∈ b.tasks.tasks ∧ t.name ∈ hostTaskNames ∧ b.HoldsHostTasks) ∨
        ∃ s ∈ earlier, t.name ∈ suiteTaskNames s ∧
          ∃ inputs, t.coverageInputs? = some inputs ∧ inputs.suite = s := by
    intro t ht hn
    rw [hg.tasks] at ht
    rcases List.mem_append.mp ht with ht | ht
    · exact Or.inl ⟨ht, gained_of_adjustAll ha hb ht hn⟩
    · obtain ⟨s, hs, _, hname, inputs, hsi, hi⟩ := (hts t ht).inputs
      exact Or.inr ⟨s, hs, hname, inputs, hi, suite_of_suiteInputs hsi⟩
  have htask : ∀ name, q.tasks.contains name → ∃ t ∈ q.tasks.tasks, t.name = name := by
    intro name hc
    exact List.mem_map.mp (TaskGraph.contains_iff_mem_names.mp hc)
  refine ⟨⟨earlier, a, b, created, ho, hm, ha, hb, hq⟩, ?_, ?_, ?_⟩
  · intro t ht hn
    rcases hnew t ht hn with ⟨htb, hhost, hholds⟩ | ⟨s, he, hname, inputs, hi, rfl⟩
    · obtain ⟨inputs, hi, hs⟩ := inputs_of_holdsHostTasks hholds htb hhost
      exact ⟨inputs, hi, Or.inl ⟨hs, hhost⟩⟩
    · obtain ⟨hc, hs, hlt⟩ := (hm inputs.suite).mp he
      exact ⟨inputs, hi, Or.inr ⟨hc, hs, hlt, hname⟩⟩
  · rintro s ⟨name, hname, hc, hn⟩
    obtain ⟨t, ht, rfl⟩ := htask name hc
    rcases hnew t ht hn with ⟨_, hhost, _⟩ | ⟨s', he, hname', _⟩
    · exact absurd hhost (not_mem_hostTaskNames hname)
    · obtain rfl := suite_unique hname hname'
      have hcov := synthesizeAll_covers (congrArg Prod.snd hq) he ((hm s).mp he).2.1
      rwa [hq] at hcov
  · rintro ⟨name, hname, hc, hn⟩
    obtain ⟨t, ht, rfl⟩ := htask name hc
    rcases hnew t ht hn with ⟨_, _, hholds⟩ | ⟨s, _, hname', _⟩
    · exact hholds.continues hbq
    · exact absurd hname (not_mem_hostTaskNames hname')

/-- On a well-formed project that is activated, only a suite can make a pass fail. -/
theorem stoppedAt_of_activate {fault : CoverageFault} (hp : p.WellFormed)
    (he : pass.policy.isEligible p.path) (ha : pass.activate p = .ok a)
    (h : pass.configure p = (q, .error fault)) :
    ∃ suite why, p.suites.contains suite ∧ suite ≠ defaultSuite ∧ fault = .project why ∧
      Concerns p suite why ∧ pass.synthesize q suite = .error why ∧ pass.StoppedAt p q suite := by
  have hb := ((continues_activate ha).wellFormed hp).adjustAll
  have hpb := continues_of_adjustAll ha hb
  rw [configure_of_adjustAll he ha hb, hpb.derivedSuites] at h
  obtain ⟨hq, hr⟩ := Prod.mk.inj h
  obtain ⟨why, hw, rfl⟩ := except_mapError_error (except_map_error hr)
  obtain ⟨earlier, suite, later, created, hsplit, hearlier, hs⟩ := synthesizeAll_error (Prod.ext hq hw)
  have hsorted := hp.derivedSuites_bytesBefore
  have hm : suite ∈ p.derivedSuites := by
    rw [hsplit]
    exact List.mem_append_right _ (List.mem_cons_self ..)
  obtain ⟨hc, hd⟩ := hp.mem_derivedSuites.mp hm
  have hpq := pass.continues_synthesizeAll earlier (Toolchain.adjusted a.toolchains a)
  rw [hearlier] at hpq
  have hcont : p.Continues q := hpb.trans hpq
  refine ⟨suite, why, hc, hd, rfl, ?_, hs, ?_⟩
  · obtain ⟨_, ⟨name, hn, hdup⟩ | hi⟩ := synthesize_error hs
    · exact Or.inl ⟨name, hn, by rw [hdup, hcont.path]⟩
    · rcases suiteInputs_error hi with ⟨_, hnone⟩ | ⟨hinc, _⟩ | ⟨_, hmain⟩
      · rw [hcont.suites] at hnone
        simp [SortedMap.contains, hnone] at hc
      · exact Or.inr (by rw [hinc, hcont.path])
      · rw [hcont.sourceSets, hp.main] at hmain
        cases hmain
  · rw [hsplit] at hsorted
    refine stoppedAt_of_synthesizeAll (List.pairwise_append.mp hsorted).1 (fun s => ?_) ha hb hearlier
    rw [Text.mem_earlier_iff hsorted, ← hsplit, hp.mem_derivedSuites, and_assoc]

/-- A pass that fails leaves exactly the work for the suites before the one at which it fails, and none
at all if it skips the project, lacks the agent's version or finds a name of the default suite's
coverage tasks taken. -/
theorem failed_pass_leaves_earlier_suites {r : Except CoverageFault CoverageOutcome}
    (hp : p.Reachable) (h : pass.configure p = (q, r)) :
    ((r = .ok .skipped ∨ (∃ why, r = .error (.catalog why)) ∨
      ∃ path, ∃ name ∈ hostTaskNames, r = .error (.project (.duplicateTask path name))) → q = p) ∧
    ∀ fault, r = .error fault → (∀ why, fault ≠ .catalog why) →
      (∀ path, ∀ name ∈ hostTaskNames, fault ≠ .project (.duplicateTask path name)) →
      ∃ suite why, p.suites.contains suite ∧ suite ≠ defaultSuite ∧ fault = .project why ∧
        Concerns p suite why ∧ pass.synthesize q suite = .error why ∧ pass.StoppedAt p q suite := by
  cases he : pass.policy.isEligible p.path with
  | false =>
    rw [configure_of_not_isEligible he] at h
    obtain ⟨rfl, rfl⟩ := Prod.mk.inj h
    exact ⟨fun _ => rfl, fun fault hf => by cases hf⟩
  | true =>
    cases ha : pass.activate p with
    | error why =>
      rw [configure_of_activate_error he ha] at h
      obtain ⟨rfl, rfl⟩ := Prod.mk.inj h
      refine ⟨fun _ => rfl, fun fault hf hcat hhost => ?_⟩
      obtain rfl := Except.error.inj hf
      rcases activate_error ha with ⟨why, rfl⟩ | ⟨name, hn, rfl, _⟩
      · exact absurd rfl (hcat why)
      · exact absurd rfl (hhost p.path name hn)
    | ok a =>
      constructor
      · rintro (rfl | ⟨why, rfl⟩ | ⟨path, name, hn, rfl⟩)
        · have hb := ((continues_activate ha).wellFormed hp.wellFormed).adjustAll
          rw [configure_of_adjustAll he ha hb] at h
          obtain ⟨_, _, hr⟩ := except_map_ok (congrArg Prod.snd h)
          cases hr
        · obtain ⟨_, _, _, _, hf, _⟩ := stoppedAt_of_activate hp.wellFormed he ha h
          cases hf
        · obtain ⟨suite, _, _, _, hf, hcon, _⟩ := stoppedAt_of_activate hp.wellFormed he ha h
          obtain rfl := CoverageFault.project.inj hf
          rcases hcon with ⟨name', hn', hdup⟩ | hinc
          · obtain ⟨_, rfl⟩ := ProjectFault.duplicateTask.inj hdup
            exact absurd hn (not_mem_hostTaskNames hn')
          · cases hinc
      · rintro fault rfl _ _
        exact stoppedAt_of_activate hp.wellFormed he ha h

/-- The sample with a suite that records no data, between two that do. -/
def unboundSample : Project :=
  Operation.run
    (Operation.run Project.sample (.addSuite "integration" (some "build/integration.exec") none))
    (.addSuite "nodata" none none)

/-- The suite before the one without data has its tasks, the one behind it has none. -/
theorem unboundSample_stopped :
    (CoveragePass.sample.configure unboundSample).2 =
        .error (.project (.incompleteSuite ":model" "nodata")) ∧
      CoveragePass.sample.StoppedAt unboundSample (CoveragePass.sample.configure unboundSample).1
        "nodata" := by
  have hp : unboundSample.Reachable := .run _ (.run _ reachable_sample)
  have hr : (CoveragePass.sample.configure unboundSample).2 =
      .error (.project (.incompleteSuite ":model" "nodata")) := by decide
  have h := failed_pass_leaves_earlier_suites hp (Prod.ext rfl hr)
  obtain ⟨suite, why, _, _, hf, hcon, _, hs⟩ := h.2 _ rfl (fun _ e => by cases e)
    (fun path name _ e => by cases e)
  obtain rfl := CoverageFault.project.inj hf
  rcases hcon with ⟨_, _, hdup⟩ | hinc
  · cases hdup
  · obtain ⟨_, rfl⟩ := ProjectFault.incompleteSuite.inj hinc
    exact ⟨hr, hs⟩

end BuildGraph.CoveragePass
