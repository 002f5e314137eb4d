import Mathlib.Data.List.TakeWhile
import BuildGraph.Proofs.Registration
import BuildGraph.Proofs.SortedMap

/-!
# Adjusting to toolchains

Adjusting a project changes tasks in place, and doing so again for the same toolchains changes nothing,
in whatever order they come and whatever properties they set. Only a task that is not there can be in
the way; the project then keeps what the toolchains before have changed.
-/

namespace BuildGraph

namespace Toolchain

/-! ## Test runs -/

/-- The excluded loaders with that of a toolchain among them. -/
def excludeLoader (loaders : Option (List String)) (t : Toolchain) : Option (List String) :=
  some (if t.excludedClassLoader ∈ loaders.getD [] then loaders.getD []
    else t.excludedClassLoader :: loaders.getD [])

/-- A toolchain adds its own loader to the excluded ones and drops none. -/
theorem mem_excludeLoader {loaders : Option (List String)} {t : Toolchain} {loader : String} :
    loader ∈ (excludeLoader loaders t).getD [] ↔
      loader = t.excludedClassLoader ∨ loader ∈ loaders.getD [] := by
  by_cases h : t.excludedClassLoader ∈ loaders.getD []
  · simp only [excludeLoader, if_pos h, Option.getD_some]
    constructor
    · exact Or.inr
    · rintro (rfl | hm)
      · exact h
      · exact hm
  · simp only [excludeLoader, if_neg h, Option.getD_some, List.mem_cons]

/-- After several toolchains the excluded loaders are those from before and one of each toolchain. -/
theorem mem_foldl_excludeLoader {ts : List Toolchain} {loaders : Option (List String)}
    {loader : String} :
    loader ∈ (ts.foldl excludeLoader loaders).getD [] ↔
      (∃ t ∈ ts, loader = t.excludedClassLoader) ∨ loader ∈ loaders.getD [] := by
  induction ts generalizing loaders with
  | nil => simp
  | cons t ts ih =>
    rw [List.foldl_cons, ih, mem_excludeLoader]
    constructor
    · rintro (⟨u, hu, hl⟩ | hl | hm)
      · exact Or.inl ⟨u, List.mem_cons_of_mem _ hu, hl⟩
      · exact Or.inl ⟨t, List.mem_cons_self .., hl⟩
      · exact Or.inr hm
    · rintro (⟨u, hu, hl⟩ | hm)
      · rcases List.mem_cons.mp hu with rfl | hu
        · exact Or.inr (Or.inl hl)
        · exact Or.inl ⟨u, hu, hl⟩
      · exact Or.inr (Or.inr hm)

/-- Loaders that are excluded already stay in their order. -/
theorem foldl_excludeLoader_of_mem {ts : List Toolchain} {loaders : List String}
    (h : ∀ t ∈ ts, t.excludedClassLoader ∈ loaders) :
    ts.foldl excludeLoader (some loaders) = some loaders := by
  induction ts with
  | nil => rfl
  | cons t ts ih =>
    have ht : excludeLoader (some loaders) t = some loaders := by
      rw [excludeLoader, Option.getD_some, if_pos (h t (List.mem_cons_self ..))]
    rw [List.foldl_cons, ht]
    exact ih fun u hu => h u (List.mem_cons_of_mem _ hu)

/-- Excluding loaders again neither repeats nor reorders them. -/
theorem foldl_excludeLoader_foldl (ts : List Toolchain) (loaders : Option (List String)) :
    ts.foldl excludeLoader (ts.foldl excludeLoader loaders) = ts.foldl excludeLoader loaders := by
  cases h : ts.foldl excludeLoader loaders with
  | none =>
    cases ts with
    | nil => rfl
    | cons t ts =>
      have hm : t.excludedClassLoader ∈ ((t :: ts).foldl excludeLoader loaders).getD [] :=
        mem_foldl_excludeLoader.mpr (Or.inl ⟨t, by simp, rfl⟩)
      simp [h] at hm
  | some ls =>
    refine foldl_excludeLoader_of_mem fun t ht => ?_
    have hm : t.excludedClassLoader ∈ (ts.foldl excludeLoader loaders).getD [] :=
      mem_foldl_excludeLoader.mpr (Or.inl ⟨t, ht, rfl⟩)
    rwa [h] at hm

/-- A test run adjusted to toolchains one after the other. -/
def adjustExecutions (ts : List Toolchain) (e : TestExecution) : TestExecution :=
  { e with
    excludedLoaders := ts.foldl excludeLoader e.excludedLoaders
    properties := (ts.flatMap executionProperties).foldl (fun m e => m.insert e.1 e.2) e.properties }

/-- The first toolchain adjusts a test run before the others do. -/
theorem adjustExecutions_cons (t : Toolchain) (ts : List Toolchain) (e : TestExecution) :
    adjustExecutions (t :: ts) e = adjustExecutions ts (t.adjustExecution e) := by
  rw [adjustExecutions, List.foldl_cons, List.flatMap_cons, List.foldl_append]
  rfl

theorem adjustExecutions_singleton (t : Toolchain) (e : TestExecution) :
    adjustExecutions [t] e = t.adjustExecution e :=
  adjustExecutions_cons t [] e

/-- Adjusting a test run again changes neither its loaders nor its properties. -/
theorem adjustExecutions_adjustExecutions (ts : List Toolchain) (e : TestExecution) :
    adjustExecutions ts (adjustExecutions ts e) = adjustExecutions ts e := by
  simp only [adjustExecutions, foldl_excludeLoader_foldl, SortedMap.foldl_insert_foldl_insert]

/-! ## Tasks -/

/-- Names with the tasks for generated sources among them. -/
def awaitSources (ts : List Toolchain) (names : SortedSet String) : SortedSet String :=
  (ts.map fun t => (t.generatedSourcesTask, ())).foldl (fun m e => m.insert e.1 e.2) names

theorem awaitSources_singleton (t : Toolchain) (names : SortedSet String) :
    awaitSources [t] names = names.add t.generatedSourcesTask := rfl

/-- Exactly the tasks of the toolchains are waited for in addition. -/
theorem contains_awaitSources {ts : List Toolchain} {names : SortedSet String} {name : String} :
    (awaitSources ts names).contains name ↔
      (∃ t ∈ ts, name = t.generatedSourcesTask) ∨ names.contains name := by
  rw [awaitSources, SortedMap.contains, SortedMap.find?_foldl_insert, Option.isSome_or,
    Bool.or_eq_true, Option.isSome_map, List.find?_isSome]
  simp [SortedMap.contains, @eq_comm _ name]

/-- A task adjusted to toolchains: all classes wait for generated sources, and test runs are
adjusted. -/
def adjustTask (ts : List Toolchain) (task : Task) : Task :=
  Task.mapExecution (adjustExecutions ts)
    (if task.name = classesTask then { task with dependsOn := awaitSources ts task.dependsOn } else task)

/-- Without toolchains a task stays as it is. -/
theorem adjustTask_nil (task : Task) : adjustTask [] task = task := by
  obtain ⟨name, action, group, description, dependsOn⟩ := task
  unfold adjustTask
  split <;> cases action <;> rfl

/-- Adjusting renames no task. -/
theorem name_adjustTask (ts : List Toolchain) (task : Task) : (adjustTask ts task).name = task.name := by
  unfold adjustTask Task.mapExecution
  split <;> split <;> rfl

/-- Only `classes` waits for more than before. -/
theorem dependsOn_adjustTask (ts : List Toolchain) (task : Task) :
    (adjustTask ts task).dependsOn =
      if task.name = classesTask then awaitSources ts task.dependsOn else task.dependsOn := by
  unfold adjustTask Task.mapExecution
  split <;> split <;> rfl

/-- Since adjusting renames nothing, it may be applied to the tasks of a graph directly. -/
theorem keepName_adjustTask (ts : List Toolchain) (task : Task) :
    TaskGraph.keepName (adjustTask ts) task = adjustTask ts task := by
  rw [TaskGraph.keepName, ← name_adjustTask ts task]

/-- Adjusting touches neither the inputs nor the places of a coverage task. -/
theorem outline?_adjustTask (ts : List Toolchain) (task : Task) :
    (adjustTask ts task).outline? = task.outline? := by
  unfold adjustTask
  split <;> cases h : task.action <;> simp [Task.mapExecution, Task.outline?, h]

/-- The first toolchain adjusts a task before the others do. -/
theorem adjustTask_cons (t : Toolchain) (ts : List Toolchain) (task : Task) :
    adjustTask (t :: ts) task = adjustTask ts (adjustTask [t] task) := by
  by_cases hn : task.name = classesTask <;> cases h : task.action <;>
    simp [adjustTask, Task.mapExecution, hn, h, adjustExecutions_cons, awaitSources] <;> rfl

/-- A task that is adjusted stays as it is when it is adjusted again. -/
theorem adjustTask_adjustTask (ts : List Toolchain) (task : Task) :
    adjustTask ts (adjustTask ts task) = adjustTask ts task := by
  by_cases hn : task.name = classesTask <;> cases h : task.action <;>
    simp [adjustTask, Task.mapExecution, hn, h, adjustExecutions_adjustExecutions, awaitSources,
      SortedMap.foldl_insert_foldl_insert]

/-- A coverage task is not concerned, whatever its name but `classes`. -/
theorem adjustTask_of_outline? (ts : List Toolchain) {task : Task} (h : task.outline?.isSome)
    (hn : task.name ≠ classesTask) : adjustTask ts task = task := by
  cases ha : task.action <;> simp [Task.outline?, ha] at h <;>
    simp [adjustTask, Task.mapExecution, hn, ha]

/-- Adjusting makes no report, and no report something else. -/
theorem action_adjustTask_eq_report_iff {ts : List Toolchain} {task : Task} {r : Report} :
    (adjustTask ts task).action = .report r ↔ task.action = .report r := by
  unfold adjustTask
  split <;> cases h : task.action <;> simp [Task.mapExecution, h]

/-- Adjusting leaves report tasks to their convention. -/
theorem followConvention_adjustTask {ts : List Toolchain} {task : Task} {c : ReportConvention}
    (h : task.followConvention c = task) :
    (adjustTask ts task).followConvention c = adjustTask ts task := by
  rw [Task.followConvention_eq_self_iff] at h ⊢
  intro r hr
  have hreport : task.action = .report r := action_adjustTask_eq_report_iff.mp hr
  exact h r hreport

/-! ## Projects -/

/-- A project with all tasks adjusted to toolchains. -/
def adjusted (ts : List Toolchain) (p : Project) : Project :=
  { p with tasks := p.tasks.mapTasks (adjustTask ts) }

/-- The first task that a toolchain needs and a project lacks. -/
def missing? (t : Toolchain) (p : Project) : Option String :=
  [t.generatedSourcesTask, classesTask].find? fun name => !p.tasks.contains name

/-- The toolchains of a project are those it has the capability for. -/
theorem mem_toolchains {p : Project} {t : Toolchain} : t ∈ p.toolchains ↔ p.has (.toolchain t) := by
  rw [Project.toolchains, List.mem_filterMap, Project.has, ← SortedMap.mem_keys_iff]
  constructor
  · rintro ⟨c, hc, ht⟩
    cases c with
    | toolchain u =>
      obtain rfl : u = t := Option.some.inj ht
      exact hc
    | _ => cases ht
  · intro h
    exact ⟨_, h, rfl⟩

/-- A project is adjusted as soon as all of its tasks are. -/
theorem adjusted_eq_self {ts : List Toolchain} {p : Project}
    (h : ∀ t ∈ p.tasks.tasks, adjustTask ts t = t) : adjusted ts p = p := by
  have ht : p.tasks.mapTasks (adjustTask ts) = p.tasks := by
    apply TaskGraph.mapTasks_eq_self
    intro t hm
    rw [keepName_adjustTask, h t hm]
  rw [adjusted, ht]

/-- Without toolchains a project stays as it is. -/
theorem adjusted_nil (p : Project) : adjusted [] p = p :=
  adjusted_eq_self fun t _ => adjustTask_nil t

/-- Adjusting a project is adjusting each task in its place. -/
theorem tasks_adjusted (ts : List Toolchain) (p : Project) :
    (adjusted ts p).tasks.tasks = p.tasks.tasks.map (adjustTask ts) :=
  List.map_congr_left fun t _ => keepName_adjustTask ts t

/-- Toolchains adjust a project one after the other. -/
theorem adjusted_cons (t : Toolchain) (ts : List Toolchain) (p : Project) :
    adjusted (t :: ts) p = adjusted ts (adjusted [t] p) := by
  have h : (adjusted (t :: ts) p).tasks = (adjusted ts (adjusted [t] p)).tasks := by
    refine TaskGraph.ext_tasks ?_
    rw [tasks_adjusted, tasks_adjusted, tasks_adjusted, List.map_map]
    exact List.map_congr_left fun task _ => adjustTask_cons t ts task
  exact congrArg (fun tasks => { p with tasks }) h

/-- A project that is adjusted stays as it is. -/
theorem adjusted_adjusted (ts : List Toolchain) (p : Project) :
    adjusted ts (adjusted ts p) = adjusted ts p := by
  refine adjusted_eq_self fun t ht => ?_
  rw [tasks_adjusted] at ht
  obtain ⟨u, _, rfl⟩ := List.mem_map.mp ht
  exact adjustTask_adjustTask ts u

/-- Adjusting neither registers nor renames a task. -/
theorem names_adjusted (ts : List Toolchain) (p : Project) :
    (adjusted ts p).tasks.names = p.tasks.names :=
  TaskGraph.names_mapTasks p.tasks _

/-- Adjusting leaves the suites and the outlines of coverage tasks alone. -/
theorem continues_adjusted (ts : List Toolchain) (p : Project) : p.Continues (adjusted ts p) :=
  .of_mapTasks p (outline?_adjustTask ts)

/-- A toolchain needs its task for generated sources and `classes`, and nothing else. -/
theorem missing?_eq_none_iff {t : Toolchain} {p : Project} :
    t.missing? p = none ↔ p.tasks.contains t.generatedSourcesTask ∧ p.tasks.contains classesTask := by
  simp [missing?]

/-- What a toolchain lacks is a matter of names, which adjusting does not change. -/
theorem missing?_adjusted (t : Toolchain) (ts : List Toolchain) (p : Project) :
    t.missing? (adjusted ts p) = t.missing? p := rfl

/-- A project that lacks nothing is adjusted. -/
theorem adjust_eq (t : Toolchain) (p : Project) :
    t.adjust p = match t.missing? p with
      | some name => .error (.missingTask p.path name)
      | none => .ok (adjusted [t] p) := by
  unfold adjust missing?
  cases hg : p.tasks.contains t.generatedSourcesTask with
  | false => simp [hg]
  | true =>
    cases hc : p.tasks.contains classesTask with
    | false => simp [hg, hc]
    | true =>
      have h : (p.tasks.modify classesTask fun task =>
            { task with dependsOn := task.dependsOn.add t.generatedSourcesTask }).mapTasks
          (Task.mapExecution t.adjustExecution) = p.tasks.mapTasks (adjustTask [t]) := by
        rw [TaskGraph.modify_eq_mapTasks]
        refine TaskGraph.ext_tasks ?_
        change List.map _ (List.map _ p.tasks.tasks) = List.map _ p.tasks.tasks
        rw [List.map_map]
        refine List.map_congr_left fun task _ => ?_
        by_cases hn : task.name = classesTask <;> cases ha : task.action <;>
          simp [TaskGraph.keepName, adjustTask, Task.mapExecution, hn, ha, adjustExecutions_singleton,
            awaitSources_singleton]
      simp [hg, hc, h, adjusted]

/-- A project is adjusted to the toolchains before the first one that lacks a task. -/
theorem adjustAll_eq (ts : List Toolchain) (p : Project) :
    adjustAll ts p = (adjusted (ts.takeWhile fun t => (t.missing? p).isNone) p,
      match ts.findSome? (·.missing? p) with
      | some name => .error (.missingTask p.path name)
      | none => .ok ()) := by
  induction ts generalizing p with
  | nil => rw [List.takeWhile_nil, adjusted_nil]; rfl
  | cons t ts ih =>
    rw [adjustAll, adjust_eq, List.findSome?_cons, List.takeWhile_cons]
    cases h : t.missing? p with
    | some name => simp [adjusted_nil]
    | none =>
      simp only [ih, missing?_adjusted, Option.isNone_none, if_true]
      rw [adjusted_cons t (ts.takeWhile fun t => (t.missing? p).isNone)]
      rfl

/-- Adjusting a second time changes nothing, and fails as it did. -/
theorem adjustAll_adjustAll (ts : List Toolchain) (p : Project) :
    adjustAll ts (adjustAll ts p).1 = adjustAll ts p := by
  simp only [adjustAll_eq, missing?_adjusted, adjusted_adjusted]
  rfl

/-- If no toolchain lacks a task, all of them adjust the project. -/
theorem adjustAll_of_missing?_eq_none {ts : List Toolchain} {p : Project}
    (h : ∀ t ∈ ts, t.missing? p = none) : adjustAll ts p = (adjusted ts p, .ok ()) := by
  have hn : ts.findSome? (·.missing? p) = none := List.findSome?_eq_none_iff.mpr h
  have ht : ts.takeWhile (fun t => (t.missing? p).isNone) = ts :=
    List.takeWhile_eq_self_iff.mpr fun t hm => by rw [h t hm]; rfl
  rw [adjustAll_eq, hn, ht]

/-- Toolchains get through only if none of them lacks a task, and then the project is adjusted to all. -/
theorem adjustAll_ok {ts : List Toolchain} {p q : Project} (h : adjustAll ts p = (q, .ok ())) :
    q = adjusted ts p ∧ ∀ t ∈ ts, t.missing? p = none := by
  have hn : ∀ t ∈ ts, t.missing? p = none := by
    rw [adjustAll_eq] at h
    cases hf : ts.findSome? (·.missing? p) with
    | none => exact List.findSome?_eq_none_iff.mp hf
    | some name => simp [hf] at h
  rw [adjustAll_of_missing?_eq_none hn] at h
  exact ⟨(congrArg Prod.fst h).symm, hn⟩

/-- Whether or not toolchains get through, the suites and the outlines of coverage tasks stay. -/
theorem continues_adjustAll (ts : List Toolchain) (p : Project) : p.Continues (adjustAll ts p).1 := by
  rw [adjustAll_eq]
  exact continues_adjusted _ p

end Toolchain

end BuildGraph
