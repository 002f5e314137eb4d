import BuildGraph.Proofs.GeneratedSources
import BuildGraph.Proofs.InternalFaults
import BuildGraph.Proofs.PassPhases

/-!
# What passes leave of a task

Passes that differ may require report after report, but they all adjust a project to the same toolchains.
Requiring reports commutes with adjusting, and adjusting is done once and for all. A task that has gone
through any number of passes is therefore the task as it was, with more reports required and adjusted a
single time. In particular the loaders that somebody has excluded from a test run stay in their order, and
that of the toolchain comes before them once, if it was not among them.
-/

namespace BuildGraph

/-! ## Properties -/

namespace SortedMap

variable {κ υ : Type} [Ord κ] [Std.TransOrd κ] [Std.LawfulEqOrd κ] [DecidableEq κ]

/-- Bindings of distinct keys hide what was bound to these keys, and nothing else. -/
theorem find?_foldl_insert_of_nodup {l : List (κ × υ)} (hl : (l.map (·.1)).Nodup) (m : SortedMap κ υ)
    (key : κ) :
    (l.foldl (fun m e => m.insert e.1 e.2) m).find? key = (l.lookup key).or (m.find? key) := by
  induction l generalizing m with
  | nil => rfl
  | cons e l ih =>
    obtain ⟨k, v⟩ := e
    rw [List.map_cons, List.nodup_cons] at hl
    rw [List.foldl_cons, ih hl.2, find?_insert, List.lookup_cons]
    by_cases h : key = k
    · -- No later binding is for this key.
      have hnone : l.lookup key = none := by
        rw [List.lookup_eq_none_iff]
        intro e hm
        rw [bne_iff_ne]
        rintro rfl
        exact hl.1 (h ▸ List.mem_map_of_mem (f := (·.1)) hm)
      rw [hnone, if_pos h, beq_iff_eq.mpr h]
      rfl
    · rw [if_neg h, beq_eq_false_iff_ne.mpr h]

end SortedMap

/-! ## Test runs -/

namespace Toolchain

/-- Whether a test run is another one adjusted to a toolchain, and nothing more. -/
structure Adjusts (t : Toolchain) (before after : TestExecution) : Prop where
  suite : after.suite = before.suite
  excluded : ∀ loaders, before.excludedLoaders = some loaders → t.excludedClassLoader ∈ loaders →
    after.excludedLoaders = some loaders
  added : t.excludedClassLoader ∉ before.excludedLoaders.getD [] →
    after.excludedLoaders = some (t.excludedClassLoader :: before.excludedLoaders.getD [])
  properties : ∀ key, after.properties.find? key =
    (t.executionProperties.lookup key).or (before.properties.find? key)

/-- No toolchain sets a property twice. -/
theorem nodup_executionProperties (t : Toolchain) : (t.executionProperties.map (·.1)).Nodup := by
  cases t; decide

/-- To adjust a test run is to exclude one loader and to set the properties of the toolchain. -/
theorem adjusts_adjustExecution (t : Toolchain) (e : TestExecution) : t.Adjusts e (t.adjustExecution e) where
  suite := rfl
  excluded loaders h hm := by
    rw [adjustExecution, h]
    exact congrArg some (if_pos hm)
  added h := congrArg some (if_neg h)
  properties := SortedMap.find?_foldl_insert_of_nodup t.nodup_executionProperties e.properties

end Toolchain

namespace Project

variable {p : Project}

/-- A project has a toolchain at most once. -/
theorem nodup_toolchains (p : Project) : p.toolchains.Nodup := by
  refine List.Nodup.filterMap ?_ p.capabilities.nodup_keys
  intro c d t hc hd
  cases c <;> cases d <;> simp_all

/-- There is one toolchain, so a project has none or this one. -/
theorem toolchains_eq (p : Project) :
    p.toolchains = if p.has (.toolchain .quarkus) then [.quarkus] else [] := by
  split
  · rename_i h
    refine List.perm_singleton.mp ((List.perm_ext_iff_of_nodup p.nodup_toolchains (by decide)).mpr ?_)
    intro t
    cases t
    simpa [Toolchain.mem_toolchains] using h
  · rename_i h
    refine List.eq_nil_iff_forall_not_mem.mpr fun t ht => ?_
    cases t
    exact h (Toolchain.mem_toolchains.mp ht)

end Project

/-! ## Tasks -/

namespace Task

/-- Whether a task is another one except for the reports that it renders. -/
structure SameButReports (t u : Task) : Prop where
  name : u.name = t.name
  group : u.group = t.group
  description : u.description = t.description
  dependsOn : u.dependsOn = t.dependsOn
  purpose : u.purpose = t.purpose
  test : ∀ e, t.action = .test e → u.action = .test e

namespace SameButReports

variable {t u v : Task}

theorem refl (t : Task) : t.SameButReports t := ⟨rfl, rfl, rfl, rfl, rfl, fun _ h => h⟩

theorem trans (h : t.SameButReports u) (h' : u.SameButReports v) : t.SameButReports v where
  name := h'.name.trans h.name
  group := h'.group.trans h.group
  description := h'.description.trans h.description
  dependsOn := h'.dependsOn.trans h.dependsOn
  purpose := h'.purpose.trans h.purpose
  test e he := h'.test e (h.test e he)

end SameButReports

/-- Following a convention changes nothing of a task but what it renders. -/
theorem sameButReports_followConvention (t : Task) (c : ReportConvention) :
    t.SameButReports (t.followConvention c) := by
  obtain ⟨name, action, group, description, dependsOn⟩ := t
  cases action with
  | report r => exact ⟨rfl, rfl, rfl, rfl, rfl, nofun⟩
  | _ => exact .refl _

end Task

namespace Toolchain

/-- It does not matter whether reports are required before or after a task is adjusted. -/
theorem followConvention_adjustTask_comm (ts : List Toolchain) (t : Task) (c : ReportConvention) :
    (adjustTask ts t).followConvention c = adjustTask ts (t.followConvention c) := by
  by_cases hn : t.name = classesTask <;> cases h : t.action <;>
    simp [adjustTask, Task.followConvention, Task.mapExecution, hn, h]

/-- Adjusting moves no task into another group. -/
theorem group_adjustTask (ts : List Toolchain) (t : Task) : (adjustTask ts t).group = t.group := by
  unfold adjustTask Task.mapExecution
  split <;> split <;> rfl

/-- Adjusting leaves the description of a task as it is. -/
theorem description_adjustTask (ts : List Toolchain) (t : Task) :
    (adjustTask ts t).description = t.description := by
  unfold adjustTask Task.mapExecution
  split <;> split <;> rfl

/-- A test run stays a test run, adjusted to all toolchains. -/
theorem action_adjustTask_of_test {t : Task} {e : TestExecution} (ts : List Toolchain)
    (h : t.action = .test e) : (adjustTask ts t).action = .test (adjustExecutions ts e) := by
  unfold adjustTask
  split <;> simp [Task.mapExecution, h]

end Toolchain

/-! ## Passes -/

namespace CoveragePass

open Project

variable {pass : CoveragePass} {passes : List CoveragePass} {p q a : Project} {created : List String}
  {name : String} {t : Task}

/-- Whether passes take a project in and configure it, one after the other. -/
inductive Configured : List CoveragePass → Project → Project → Prop where
  | nil (p : Project) : Configured [] p p
  | cons {pass : CoveragePass} {passes : List CoveragePass} {p q r : Project} {created : List String}
    (h : pass.configure p = (q, .ok (.configured created))) (hs : Configured passes q r) :
    Configured (pass :: passes) p r

/-- Activation grants no toolchain. -/
theorem toolchains_activate (h : pass.activate p = .ok a) : a.toolchains = p.toolchains := by
  obtain ⟨version, m, _, hm, rfl⟩ := activate_ok h
  have hfinish : (pass.finishActivation m version).toolchains = m.toolchains :=
    toolchains_add (c := .coverageAggregation) nofun rfl
  rw [hfinish]
  obtain ⟨n, hg, rfl⟩ := enableCoverage_ok hm
  have hn : n.toolchains = p.toolchains := toolchains_congr hg.capabilities
  rw [← hn]
  split
  · rfl
  · exact toolchains_add (c := .coverage) nofun rfl

/-- Activation registers tasks and requires reports of those that are there. -/
theorem task?_activate (h : pass.activate p = .ok a) (ht : p.task? name = some t) :
    a.task? name = some (t.followConvention pass.convention) := by
  obtain ⟨version, m, _, hm, rfl⟩ := activate_ok h
  obtain ⟨n, hg, rfl⟩ := enableCoverage_ok hm
  have hn : n.task? name = some t := by rw [hg.task?, ht, Option.some_or]
  rw [task?_finishActivation]
  split
  · rw [hn, Option.map_some]
  · exact congrArg (Option.map (·.followConvention pass.convention)) hn

/-- A pass that configures a project registers tasks for suites once the project is adjusted. -/
theorem grows_of_configure (h : pass.configure p = (q, .ok (.configured created))) :
    ∃ a ts, pass.activate p = .ok a ∧ (Toolchain.adjusted a.toolchains a).Grows q ts := by
  obtain ⟨a, b, _, ha, hb, hs⟩ := configure_eq_configured h
  obtain ⟨rfl, _⟩ := Toolchain.adjustAll_ok hb
  obtain ⟨ts, hg, _⟩ := pass.synthesizeAll_grows p.derivedSuites (Toolchain.adjusted a.toolchains a)
  rw [hs] at hg
  exact ⟨a, ts, ha, hg⟩

/-- A whole pass grants no toolchain, so that the next one adjusts to the same ones. -/
theorem toolchains_configure (h : pass.configure p = (q, .ok (.configured created))) :
    q.toolchains = p.toolchains := by
  obtain ⟨a, ts, ha, hg⟩ := grows_of_configure h
  have hq : q.toolchains = a.toolchains := toolchains_congr hg.capabilities
  rw [hq, toolchains_activate ha]

/-- A pass that configures a project settles each task that was there. -/
theorem task?_configure (h : pass.configure p = (q, .ok (.configured created)))
    (ht : p.task? name = some t) : q.task? name = some (pass.settle p t) := by
  obtain ⟨a, ts, ha, hg⟩ := grows_of_configure h
  have hadjusted : (Toolchain.adjusted a.toolchains a).task? name = some (pass.settle p t) := by
    refine (TaskGraph.get?_mapTasks a.tasks _ name).trans ?_
    rw [show a.tasks.get? name = _ from task?_activate ha ht, Option.map_some,
      Toolchain.keepName_adjustTask, toolchains_activate ha, settle]
  rw [hg.task?, hadjusted, Option.some_or]

/-- What has been adjusted once is only made to require more reports. -/
theorem Configured.task?_of_adjusted (h : Configured passes p q)
    (ht : p.task? name = some (Toolchain.adjustTask p.toolchains t)) :
    ∃ u, t.SameButReports u ∧ q.task? name = some (Toolchain.adjustTask p.toolchains u) := by
  induction h generalizing t with
  | nil p => exact ⟨t, .refl t, ht⟩
  | @cons pass passes p m q created hm _ ih =>
    have hstep : m.task? name =
        some (Toolchain.adjustTask m.toolchains (t.followConvention pass.convention)) := by
      rw [task?_configure hm ht, settle, Toolchain.followConvention_adjustTask_comm,
        Toolchain.adjustTask_adjustTask, toolchains_configure hm]
    obtain ⟨u, hu, hq⟩ := ih hstep
    rw [toolchains_configure hm] at hq
    exact ⟨u, (t.sameButReports_followConvention pass.convention).trans hu, hq⟩

/-- Any number of passes adjusts a task once. -/
theorem Configured.task? (h : Configured passes p q) (hne : passes ≠ []) (ht : p.task? name = some t) :
    ∃ u, t.SameButReports u ∧ q.task? name = some (Toolchain.adjustTask p.toolchains u) := by
  cases h with
  | nil p => exact absurd rfl hne
  | @cons pass passes _ m _ created hm hs =>
    have hfirst := task?_configure hm ht
    rw [settle, ← toolchains_configure hm] at hfirst
    obtain ⟨u, hu, hq⟩ := hs.task?_of_adjusted hfirst
    rw [toolchains_configure hm] at hq
    exact ⟨u, (t.sameButReports_followConvention pass.convention).trans hu, hq⟩

/-- After one or more passes, each task that a project had is there with its group, its description and
its purpose. If the project has a toolchain then `classes`, which is always there, waits for one more task,
the one of the generated sources, and each test run is adjusted as by a single pass; otherwise all
dependencies and test runs are as they were. -/
theorem configured_adjusts_once (hp : p.Attainable) (hne : passes ≠ []) (h : Configured passes p q) :
    p.tasks.contains classesTask ∧
    ∀ name t, p.task? name = some t → ∃ u, q.task? name = some u ∧
      u.group = t.group ∧ u.description = t.description ∧ u.purpose = t.purpose ∧
      u.dependsOn = (if p.has (.toolchain .quarkus) ∧ name = classesTask then
        t.dependsOn.add Toolchain.quarkus.generatedSourcesTask else t.dependsOn) ∧
      ∀ before, t.action = .test before → ∃ after, u.action = .test after ∧
        if p.has (.toolchain .quarkus) then Toolchain.quarkus.Adjusts before after else after = before := by
  refine ⟨hp.wellFormed.classes, fun name t ht => ?_⟩
  obtain ⟨u, hu, hq⟩ := h.task? hne ht
  have hname : u.name = name := hu.name.trans (TaskGraph.name_of_get? ht)
  refine ⟨_, hq, ?_, ?_, ?_, ?_, fun before hbefore => ?_⟩
  · rw [Toolchain.group_adjustTask, hu.group]
  · rw [Toolchain.description_adjustTask, hu.description]
  · rw [Toolchain.purpose_adjustTask, hu.purpose]
  · rw [Toolchain.dependsOn_adjustTask, hname, hu.dependsOn, p.toolchains_eq]
    by_cases hc : name = classesTask <;> by_cases ht : p.has (.toolchain .quarkus) <;> simp [hc, ht] <;> rfl
  · refine ⟨_, Toolchain.action_adjustTask_of_test _ (hu.test before hbefore), ?_⟩
    rw [p.toolchains_eq]
    split
    · rw [Toolchain.adjustExecutions_singleton]
      exact Toolchain.quarkus.adjusts_adjustExecution before
    · rfl

/-- Somebody has named loaders for a test run of a project with a toolchain, its own among them and another
one twice. -/
def excludingSample : Project :=
  Operation.run generatingSample
    (.editExecution "slow" (some ["mine", "*QuarkusClassLoader", "mine"]) (.ofList [("mode", "slow")]))

/-- Two passes keep the loaders that have been named, and exclude the toolchain's own from the other run. -/
theorem excludingSample_adjusted :
    excludingSample.Attainable ∧ ∃ q,
      Configured [sample, { sample with convention := ⟨[.csv]⟩ }] excludingSample q ∧
      (∃ u after, q.task? "slow" = some u ∧ u.action = .test after ∧
        after.excludedLoaders = some ["mine", "*QuarkusClassLoader", "mine"] ∧
        after.properties.find? "mode" = some "slow") ∧
      ∃ u after, q.task? "test" = some u ∧ u.action = .test after ∧
        after.excludedLoaders = some ["*QuarkusClassLoader"] := by
  have hp : excludingSample.Attainable :=
    (Reachable.run (.editExecution _ _ _) (.run (.apply _) reachable_sample)).attainable
  have hfirst : (sample.configure excludingSample).2 =
      .ok (.configured ["coverage-report-slow", "coverage-verification-slow"]) := by decide
  have hsecond : (({ sample with convention := ⟨[.csv]⟩ } : CoveragePass).configure
      (sample.configure excludingSample).1).2 = .ok (.configured []) := by decide
  obtain ⟨q, h⟩ : ∃ q,
      Configured [sample, { sample with convention := ⟨[.csv]⟩ }] excludingSample q :=
    ⟨_, .cons (Prod.ext rfl hfirst) (.cons (Prod.ext rfl hsecond) (.nil _))⟩
  obtain ⟨_, htask⟩ := configured_adjusts_once hp (by simp) h
  have hslow : (excludingSample.task? "slow").map (·.action) =
      some (.test ⟨"slow", some ["mine", "*QuarkusClassLoader", "mine"],
        .ofList [("mode", "slow")]⟩) := by decide
  have htest : (excludingSample.task? "test").map (·.action) =
      some (.test { suite := defaultSuite }) := by decide
  obtain ⟨slow, hfoundSlow, hslow⟩ := Option.map_eq_some_iff.mp hslow
  obtain ⟨test, hfoundTest, htest⟩ := Option.map_eq_some_iff.mp htest
  have hq : excludingSample.has (.toolchain .quarkus) := by decide
  refine ⟨hp, q, h, ?_, ?_⟩
  · obtain ⟨u, hu, _, _, _, _, hrun⟩ := htask "slow" slow hfoundSlow
    obtain ⟨after, hafter, hadjusts⟩ := hrun _ hslow
    rw [if_pos hq] at hadjusts
    exact ⟨u, after, hu, hafter, hadjusts.excluded _ rfl (by decide),
      (hadjusts.properties "mode").trans (by decide)⟩
  · obtain ⟨u, hu, _, _, _, _, hrun⟩ := htask "test" test hfoundTest
    obtain ⟨after, hafter, hadjusts⟩ := hrun _ htest
    rw [if_pos hq] at hadjusts
    exact ⟨u, after, hu, hafter, hadjusts.added (by decide)⟩

end CoveragePass

end BuildGraph
