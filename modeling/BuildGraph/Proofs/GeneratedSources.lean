import BuildGraph.Proofs.TaskHistory

/-!
# Generated sources come before `classes`

In a configured project `classes` waits for the task that compiles a toolchain's generated sources. What
the task of that name really does is settled once, when the toolchain is applied: a free name goes to a
task that compiles, and a name that is taken stays with its holder, whatever the holder is there for. No
later operation and no pass looks into this again, so that `classes` may end up waiting for tests.
-/

namespace BuildGraph

/-- The purpose of a task tells whether it compiles. -/
theorem Task.purpose_eq_compile_iff {t : Task} : t.purpose = .compile ↔ t.action = .compile := by
  cases h : t.action <;> simp [purpose, h]

namespace Project

variable {p q : Project} {t : Toolchain} {name : String}

/-- Whether a name is held by a task that compiles. -/
def Compiles (p : Project) (name : String) : Prop := ∃ task, p.task? name = some task ∧ task.action = .compile

/-- Whether `classes` waits for the generated sources of a toolchain. -/
def AwaitsSources (p : Project) (t : Toolchain) : Prop :=
  ∃ task, p.task? classesTask = some task ∧ task.dependsOn.contains t.generatedSourcesTask

/-! ## Holders of a name -/

/-- Whether the holder of a name compiles does not change. -/
theorem Appends.compiles_iff (h : p.Appends q) (hc : p.tasks.contains name) :
    q.Compiles name ↔ p.Compiles name := by
  rw [TaskGraph.contains_eq_isSome_get?] at hc
  obtain ⟨task, htask⟩ := Option.isSome_iff_exists.mp hc
  obtain ⟨later, hlater, hpurpose⟩ := h.task? htask
  have haction : later.action = .compile ↔ task.action = .compile := by
    rw [← Task.purpose_eq_compile_iff, ← Task.purpose_eq_compile_iff, hpurpose]
  constructor
  · rintro ⟨found, hfound, hcompile⟩
    obtain rfl : later = found := Option.some.inj (hlater.symm.trans hfound)
    exact ⟨task, htask, haction.mp hcompile⟩
  · rintro ⟨found, hfound, hcompile⟩
    obtain rfl : task = found := Option.some.inj (htask.symm.trans hfound)
    exact ⟨later, hlater, haction.mpr hcompile⟩

/-- A whole run only adds tasks. -/
theorem appends_foldl_run (operations : List Operation) (p : Project) :
    p.Appends (operations.foldl Operation.run p) := by
  induction operations generalizing p with
  | nil => exact .refl p
  | cons operation operations ih => exact (appends_run operation p).trans (ih _)

/-- A toolchain that is applied leaves a taken name with its holder, and gives a free one to a task that
compiles. -/
theorem compiles_apply_iff (p : Project) (t : Toolchain) :
    (p.apply (.toolchain t)).Compiles t.generatedSourcesTask ↔
      p.task? t.generatedSourcesTask = none ∨ p.Compiles t.generatedSourcesTask := by
  have htasks : (p.apply (.toolchain t)).tasks.tasks = _ :=
    TaskGraph.tasks_ensure p.tasks { name := t.generatedSourcesTask, action := .compile }
  cases hc : p.tasks.contains t.generatedSourcesTask with
  | true =>
    rw [if_pos hc] at htasks
    have hsome : p.task? t.generatedSourcesTask ≠ none := by
      intro hn
      rw [TaskGraph.contains_eq_false_iff.mpr hn] at hc
      cases hc
    rw [or_iff_right hsome]
    exact (Appends.of_tasks (htasks.trans (List.append_nil _).symm)).compiles_iff hc
  | false =>
    have hn : p.task? t.generatedSourcesTask = none := TaskGraph.contains_eq_false_iff.mp hc
    rw [if_neg (by simp [hc])] at htasks
    refine iff_of_true ⟨{ name := t.generatedSourcesTask, action := .compile }, ?_, rfl⟩ (Or.inl hn)
    refine (TaskGraph.get?_of_append htasks _).trans ?_
    rw [show p.tasks.get? t.generatedSourcesTask = none from hn, Option.none_or, List.find?_singleton]
    simp

/-- What holds the name when a toolchain is applied holds it after any run that follows. -/
theorem compiles_foldl_run_iff (p : Project) (t : Toolchain) (operations : List Operation) :
    (operations.foldl Operation.run (p.apply (.toolchain t))).Compiles t.generatedSourcesTask ↔
      p.task? t.generatedSourcesTask = none ∨ p.Compiles t.generatedSourcesTask := by
  obtain ⟨_, _, _, hc⟩ := p.tasks_apply (.toolchain t)
  rw [(appends_foldl_run operations _).compiles_iff (hc t rfl), compiles_apply_iff]

/-! ## Where toolchains come from -/

/-- A project has the toolchains that it had and the one that is applied to it. -/
theorem has_toolchain_run {operation : Operation}
    (h : (operation.run p).has (.toolchain t)) : p.has (.toolchain t) ∨ operation = .apply (.toolchain t) := by
  have hattempted : ∀ {r : Except ProjectFault Project}, (∀ q, r = .ok q → p.Continues q) →
      (p.attempted r).has (.toolchain t) = p.has (.toolchain t) := by
    intro r hr
    exact of_attempted (P := fun q => q.has (.toolchain t) = p.has (.toolchain t)) rfl fun q hq =>
      (hr q hq).has_toolchain t
  cases operation with
  | addSuite name file sourceSet =>
    refine Or.inl (of_attempted (P := fun q => q.has (.toolchain t) → p.has (.toolchain t)) id ?_ h)
    intro q hq hq'
    obtain ⟨_, _, m, suite, hg, _, rfl⟩ := addSuite_ok hq
    exact ((Continues.of_grows hg).has_toolchain t).symm.trans hq'
  | apply c =>
    rw [Operation.run, has_apply, Bool.or_eq_true, decide_eq_true_iff] at h
    rcases h with rfl | h
    · exact Or.inr rfl
    · exact Or.inl h
  | enableCoverage reportsDir =>
    exact Or.inl ((hattempted fun q hq => continues_enableCoverage hq).symm.trans h)
  | register task => exact Or.inl ((hattempted fun q hq => continues_register hq).symm.trans h)
  | configure pass => exact Or.inl (((pass.continues_configure p).has_toolchain t).symm.trans h)
  | synthesize pass suite =>
    rw [Operation.run, attempted_synthesize] at h
    exact Or.inl (((pass.continues_synthesizeAll [suite] p).has_toolchain t).symm.trans h)
  | configureReports convention => exact Or.inl h
  | editExecution task excludedLoaders properties => exact Or.inl h
  | editCoverage extension => exact Or.inl h
  | relocate path buildDir => exact Or.inl h
  | requestUberJar uberJar => exact Or.inl h

/-- A reachable project with a toolchain has got it by a first application. -/
theorem Reachable.exists_first_apply (hp : p.Reachable) (ht : p.has (.toolchain t)) :
    ∃ (r : Project) (operations : List Operation), r.Reachable ∧ r.has (.toolchain t) = false ∧
      p = operations.foldl Operation.run (r.apply (.toolchain t)) := by
  induction hp with
  | fresh path buildDir => cases ht
  | @run p operation hp ih =>
    cases hbefore : p.has (.toolchain t) with
    | true =>
      obtain ⟨r, operations, hr, hn, rfl⟩ := ih hbefore
      exact ⟨r, operations ++ [operation], hr, hn, by rw [List.foldl_concat]⟩
    | false =>
      rcases has_toolchain_run ht with h | rfl
      · rw [hbefore] at h
        cases h
      · exact ⟨p, [], hp, hbefore, rfl⟩

end Project

namespace CoveragePass

open Project

variable {pass : CoveragePass} {p q : Project} {created : List String} {t : Toolchain}

/-- In a configured project `classes` waits for the generated sources of every toolchain. -/
theorem awaitsSources_of_configure (hp : p.WellFormed) (ht : p.has (.toolchain t))
    (h : pass.configure p = (q, .ok (.configured created))) : q.AwaitsSources t := by
  obtain ⟨a, b, _, ha, hb, hs⟩ := configure_eq_configured h
  obtain ⟨rfl, _⟩ := Toolchain.adjustAll_ok hb
  obtain ⟨ts, hg, _⟩ := pass.synthesizeAll_grows p.derivedSuites (Toolchain.adjusted a.toolchains a)
  rw [hs] at hg
  have hpa := continues_activate ha
  have hclasses := (hpa.wellFormed hp).classes
  rw [TaskGraph.contains_eq_isSome_get?] at hclasses
  obtain ⟨task, htask⟩ := Option.isSome_iff_exists.mp hclasses
  have hname : task.name = classesTask := TaskGraph.name_of_get? htask
  have hmem : t ∈ a.toolchains := Toolchain.mem_toolchains.mpr (by rwa [hpa.has_toolchain])
  have hfound : (Toolchain.adjusted a.toolchains a).task? classesTask =
      some (Toolchain.adjustTask a.toolchains task) := by
    refine (TaskGraph.get?_mapTasks a.tasks _ classesTask).trans ?_
    rw [htask, Option.map_some, Toolchain.keepName_adjustTask]
  refine ⟨_, by rw [hg.task?, hfound, Option.some_or], ?_⟩
  rw [Toolchain.dependsOn_adjustTask, if_pos hname, Toolchain.contains_awaitSources]
  exact Or.inl ⟨t, hmem, rfl⟩

/-- In a configured project with a toolchain `classes` waits for the task of the generated sources, and
that task compiles exactly if it did before the pass. Whenever the toolchain has been applied, this comes
to the same: the task compiles exactly if its name was free then or held by a task that compiles. -/
theorem configured_compiles_sources_iff (hp : p.Reachable) (ht : p.has (.toolchain t))
    (h : pass.configure p = (q, .ok (.configured created))) :
    q.AwaitsSources t ∧
    (q.Compiles t.generatedSourcesTask ↔ p.Compiles t.generatedSourcesTask) ∧
    (∃ (r : Project) (operations : List Operation), r.Reachable ∧ r.has (.toolchain t) = false ∧
      p = operations.foldl Operation.run (r.apply (.toolchain t))) ∧
    ∀ (r : Project) (operations : List Operation),
      p = operations.foldl Operation.run (r.apply (.toolchain t)) →
        (q.Compiles t.generatedSourcesTask ↔
          r.task? t.generatedSourcesTask = none ∨ r.Compiles t.generatedSourcesTask) := by
  have hpq : p.Appends q := by
    have happends := pass.appends_configure p
    rwa [h] at happends
  have hsame := hpq.compiles_iff (hp.wellFormed.generated t ht)
  refine ⟨awaitsSources_of_configure hp.wellFormed ht h, hsame, hp.exists_first_apply ht, ?_⟩
  rintro r operations rfl
  rw [hsame, compiles_foldl_run_iff]

/-- A project with a toolchain and a suite. -/
def generatingSample : Project := Operation.run Project.sample (.apply (.toolchain .quarkus))

/-- The toolchain came first: its task compiles, and `classes` waits for it after the pass. -/
theorem generatingSample_compiles :
    (sample.configure generatingSample).1.AwaitsSources .quarkus ∧
      (sample.configure generatingSample).1.Compiles "compileQuarkusGeneratedSourcesJava" := by
  have hp : generatingSample.Reachable := .run (.apply _) reachable_sample
  have hr : (sample.configure generatingSample).2 =
      .ok (.configured ["coverage-report-slow", "coverage-verification-slow"]) := by decide
  obtain ⟨hawaits, _, _, hiff⟩ :=
    configured_compiles_sources_iff (t := .quarkus) hp (by decide) (Prod.ext rfl hr)
  have hfree : Project.sample.task? "compileQuarkusGeneratedSourcesJava" = none := by decide
  exact ⟨hawaits, (hiff Project.sample [] rfl).mpr (Or.inl hfree)⟩

/-- A project whose suite has taken the name before the toolchain came. -/
def occupiedSample : Project :=
  Operation.run
    (Operation.run (.fresh ":nessie-model" "build")
      (.addSuite "compileQuarkusGeneratedSourcesJava" (some "build/jacoco/gen.exec") none))
    (.apply (.toolchain .quarkus))

/-- There the pass succeeds and `classes` waits for the suite's tests. -/
theorem occupiedSample_awaits_tests :
    occupiedSample.Reachable ∧ occupiedSample.has (.toolchain .quarkus) ∧
      (sample.configure occupiedSample).2 = .ok (.configured [
        "coverage-report-compileQuarkusGeneratedSourcesJava",
        "coverage-verification-compileQuarkusGeneratedSourcesJava"]) ∧
      ((sample.configure occupiedSample).1.task? classesTask).map (·.dependsOn.elements) =
        some ["compileQuarkusGeneratedSourcesJava"] ∧
      ((sample.configure occupiedSample).1.task? "compileQuarkusGeneratedSourcesJava").map (·.purpose) =
        some (.test "compileQuarkusGeneratedSourcesJava") := by
  refine ⟨.run (.apply _) (.run (.addSuite _ _ _) (.fresh _ _)), ?_, ?_, ?_, ?_⟩ <;> decide

end CoveragePass

end BuildGraph
