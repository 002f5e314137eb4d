import Mathlib.Data.List.Nodup
import BuildGraph.TaskGraph

/-!
# Looking up tasks

The index of a graph answers like a search through its tasks. What an operation does to a look-up is
therefore read off its effect on the list: an insertion puts one task behind the others, and a change
of tasks commutes with looking up.
-/

namespace BuildGraph.TaskGraph

/-- A task is found under a name exactly if it is listed and carries it. -/
theorem get?_eq_some_iff {g : TaskGraph} {name : String} {t : Task} :
    g.get? name = some t ↔ t ∈ g.tasks ∧ t.name = name := by
  constructor
  · intro h
    obtain ⟨i, _, hi⟩ := Option.bind_eq_some_iff.mp h
    exact ⟨List.mem_of_getElem? hi, name_of_get? h⟩
  · rintro ⟨hm, rfl⟩
    obtain ⟨i, hi⟩ := List.getElem?_of_mem hm
    have hp : g.position? t.name = some i := position?_eq_some_iff.mpr (by simp [hi])
    simp [get?, hp, hi]

/-- No name is registered twice. -/
theorem nodup_names (g : TaskGraph) : g.names.Nodup := by
  rw [List.nodup_iff_getElem?_ne_getElem?]
  intro i j hij hj e
  obtain ⟨name, hname⟩ : ∃ name, g.names[j]? = some name := ⟨_, List.getElem?_eq_getElem hj⟩
  have hi : g.position? name = some i :=
    position?_eq_some_iff.mpr (by rw [← hname, ← e, names, List.getElem?_map])
  have hj : g.position? name = some j :=
    position?_eq_some_iff.mpr (by rw [← hname, names, List.getElem?_map])
  have hsame : i = j := Option.some.inj (hi.symm.trans hj)
  omega

/-- No task is registered twice. -/
theorem nodup_tasks (g : TaskGraph) : g.tasks.Nodup := g.nodup_names.of_map _

/-- Nothing is found exactly under names that are not listed. -/
theorem get?_eq_none_iff {g : TaskGraph} {name : String} : g.get? name = none ↔ name ∉ g.names := by
  simp only [Option.eq_none_iff_forall_ne_some, ne_eq, get?_eq_some_iff, names, List.mem_map]
  grind

/-- The index answers like a search. -/
theorem get?_eq_find? (g : TaskGraph) (name : String) :
    g.get? name = g.tasks.find? (·.name == name) := by
  cases h : g.tasks.find? (·.name == name) with
  | none =>
    have hn := List.find?_eq_none.mp h
    rw [get?_eq_none_iff, names, List.mem_map]
    rintro ⟨t, ht, rfl⟩
    exact hn t ht (by simp)
  | some t =>
    exact get?_eq_some_iff.mpr ⟨List.mem_of_find?_eq_some h, by simpa using List.find?_some h⟩

/-- A name is taken exactly if a task is found under it. -/
theorem contains_eq_isSome_get? (g : TaskGraph) (name : String) :
    g.contains name = (g.get? name).isSome := by
  rw [contains_eq_isSome]
  cases h : g.position? name with
  | none => simp [get?, h]
  | some i =>
    have hi := position?_eq_some_iff.mp h
    cases ht : g.tasks[i]? with
    | none => simp [ht] at hi
    | some t => simp [get?, h, ht]

/-- A name is taken exactly if it is listed. -/
theorem contains_iff_mem_names {g : TaskGraph} {name : String} :
    g.contains name ↔ name ∈ g.names := by
  rw [contains_eq_isSome_get?, ← not_iff_not, ← get?_eq_none_iff]
  simp

/-- A name is free exactly if no task is found under it. -/
theorem contains_eq_false_iff {g : TaskGraph} {name : String} :
    g.contains name = false ↔ g.get? name = none := by
  rw [contains_eq_isSome_get?, Option.isSome_eq_false_iff, Option.isNone_iff_eq_none]

/-- An insertion succeeds exactly if the name is free, and puts the task behind the others. -/
theorem insert_of_free {g : TaskGraph} {t : Task} (h : g.get? t.name = none) :
    ∃ grown, g.insert t = .ok grown ∧ grown.tasks = g.tasks ++ [t] := by
  cases hi : g.insert t with
  | ok grown => exact ⟨grown, rfl, tasks_of_insert hi⟩
  | error rejected =>
    have hc := (insert_eq_error_iff.mp hi).1
    rw [contains_eq_false_iff.mpr h] at hc
    contradiction

/-- A task whose name is taken is handed back. -/
theorem insert_of_taken {g : TaskGraph} {t : Task} (h : g.contains t.name) : g.insert t = .error t :=
  insert_eq_error_iff.mpr ⟨h, rfl⟩

/-- A task that has to be there is put behind the others if its name is free. -/
theorem tasks_ensure (g : TaskGraph) (t : Task) :
    (g.ensure t).tasks = if g.contains t.name then g.tasks else g.tasks ++ [t] := by
  unfold ensure
  split
  case h_1 grown h =>
    have hn : g.contains t.name = false := by
      by_contra hc
      rw [insert_of_taken (by simpa using hc)] at h
      contradiction
    rw [tasks_of_insert h, hn]
    simp
  case h_2 rejected h =>
    rw [if_pos (insert_eq_error_iff.mp h).1]

/-- Looking up in a longer graph tries the old tasks first. -/
theorem get?_of_append {g h : TaskGraph} {ts : List Task} (e : h.tasks = g.tasks ++ ts)
    (name : String) : h.get? name = (g.get? name).or (ts.find? (·.name == name)) := by
  rw [get?_eq_find?, get?_eq_find?, e, List.find?_append]

/-- A change of all tasks commutes with looking up. -/
theorem get?_mapTasks (g : TaskGraph) (f : Task → Task) (name : String) :
    (g.mapTasks f).get? name = (g.get? name).map (keepName f) := by
  rw [get?_eq_find?, get?_eq_find?, mapTasks, List.find?_map]
  rfl

/-- Changing one task is changing all tasks by a function that looks at the name. -/
theorem modify_eq_mapTasks (g : TaskGraph) (name : String) (f : Task → Task) :
    g.modify name f = g.mapTasks fun t => if t.name = name then f t else t := by
  refine ext_tasks (List.ext_getElem? fun j => ?_)
  have hmap : (g.mapTasks fun t => if t.name = name then f t else t).tasks[j]? =
      (g.tasks[j]?).map (keepName fun t => if t.name = name then f t else t) := List.getElem?_map
  rw [hmap]
  unfold modify
  cases ht : g.tasks[j]? with
  | none =>
    split
    · exact ht
    · simp [List.getElem?_modify, ht]
  | some t =>
    have hj : g.position? t.name = some j := position?_eq_some_iff.mpr (by simp [ht])
    split
    case h_1 hn =>
      have hne : t.name ≠ name := fun e => by simp [← e, hj] at hn
      simp [ht, keepName, hne]
    case h_2 i hi =>
      by_cases hne : t.name = name
      · obtain rfl : i = j := by simpa [← hne, hj] using hi.symm
        simp [ht, keepName, hne]
      · have hij : i ≠ j := fun e => by
          have := position?_eq_some_iff.mp hi
          simp [e, ht, hne] at this
        simp [ht, keepName, hne, hij]

/-- A change that moves no task changes nothing. -/
theorem mapTasks_eq_self {g : TaskGraph} {f : Task → Task} (h : ∀ t ∈ g.tasks, keepName f t = t) :
    g.mapTasks f = g :=
  ext_tasks ((List.map_congr_left h).trans (List.map_id g.tasks))

end BuildGraph.TaskGraph
