import BuildGraph.Task

/-!
# Task graphs

The tasks of a project in the order in which they were registered, with an index of their names. The
index always agrees with the list, so a name stands for one task at one position. Tasks are never
removed, and a change of a task leaves its name alone.
-/

namespace BuildGraph

/-- Tasks with distinct names. -/
structure TaskGraph where
  /-- The tasks in order of registration. -/
  tasks : List Task
  /-- The position of each task. -/
  positions : SortedMap String Nat
  /-- A name is found at a position exactly if the task there has it. -/
  agree : ∀ name i, positions.find? name = some i ↔ (tasks[i]?).map (·.name) = some name

namespace TaskGraph

instance : DecidableEq TaskGraph
  | ⟨a, p, _⟩, ⟨b, q, _⟩ => decidable_of_iff (a = b ∧ p = q) (by simp)

/-- The graph without tasks. -/
def empty : TaskGraph := ⟨[], .empty, by simp⟩

/-- The position of the task called `name`. -/
def position? (g : TaskGraph) (name : String) : Option Nat := g.positions.find? name

/-- Whether a task is called `name`. -/
def contains (g : TaskGraph) (name : String) : Bool := g.positions.contains name

/-- The task called `name`. -/
def get? (g : TaskGraph) (name : String) : Option Task := (g.position? name).bind (g.tasks[·]?)

/-- The number of tasks. -/
def size (g : TaskGraph) : Nat := g.tasks.length

/-- Add a task behind the others. A task whose name is taken is handed back. -/
def insert (g : TaskGraph) (t : Task) : Except Task TaskGraph :=
  match h : g.position? t.name with
  | some _ => .error t
  | none => .ok {
      tasks := g.tasks ++ [t]
      positions := g.positions.insert t.name g.tasks.length
      agree := fun name i => by
        have hfree : ∀ j, (g.tasks[j]?).map Task.name ≠ some t.name := fun j e => by
          have := (g.agree t.name j).2 e
          simp [position?, this] at h
        rw [SortedMap.find?_insert]
        rcases Nat.lt_trichotomy i g.tasks.length with hi | rfl | hi
        · rw [List.getElem?_append_left hi]
          split
          · rename_i e
            subst e
            refine ⟨fun e => ?_, fun e => absurd e (hfree i)⟩
            obtain rfl := Option.some.inj e
            exact absurd hi (Nat.lt_irrefl _)
          · exact g.agree name i
        · rw [List.getElem?_append_right (Nat.le_refl _)]
          simp only [Nat.sub_self, List.getElem?_cons_zero, Option.map_some, Option.some.injEq]
          split
          · rename_i e; simp [e]
          · rename_i e
            refine ⟨fun e' => ?_, fun e' => absurd e'.symm e⟩
            have := (g.agree name g.tasks.length).1 e'
            simp at this
        · rw [List.getElem?_eq_none (by simp; omega)]
          split
          · simp only [Option.some.injEq, Option.map_none, reduceCtorEq, iff_false]
            omega
          · rw [g.agree name i, List.getElem?_eq_none (by omega)] }

/-- Add a task unless its name is taken. -/
def ensure (g : TaskGraph) (t : Task) : TaskGraph :=
  match g.insert t with
  | .ok grown => grown
  | .error _ => g

/-- A task changed by `f`, under its old name. -/
def keepName (f : Task → Task) (t : Task) : Task := { f t with name := t.name }

/-- Change all tasks. -/
def mapTasks (g : TaskGraph) (f : Task → Task) : TaskGraph where
  tasks := g.tasks.map (keepName f)
  positions := g.positions
  agree name i := by
    rw [g.agree name i, List.getElem?_map, Option.map_map]
    rfl

/-- Change the task called `name`, if there is one. -/
def modify (g : TaskGraph) (name : String) (f : Task → Task) : TaskGraph :=
  match g.position? name with
  | none => g
  | some i => {
      tasks := g.tasks.modify i (keepName f)
      positions := g.positions
      agree := fun other j => by
        rw [g.agree other j, List.getElem?_modify]
        cases g.tasks[j]? with
        | none => simp
        | some t => by_cases h : i = j <;> simp [h, keepName] }

/-- The names in order of registration. -/
def names (g : TaskGraph) : List String := g.tasks.map (·.name)

/-- The position of a name is where the task of that name is listed; no index goes stale. -/
theorem position?_eq_some_iff {g : TaskGraph} {name : String} {i : Nat} :
    g.position? name = some i ↔ (g.tasks[i]?).map (·.name) = some name :=
  g.agree name i

/-- Graphs with the same tasks are equal. -/
theorem ext_tasks {g h : TaskGraph} (e : g.tasks = h.tasks) : g = h := by
  obtain ⟨a, p, hp⟩ := g
  obtain ⟨b, q, hq⟩ := h
  obtain rfl : a = b := e
  suffices p = q by subst this; rfl
  refine SortedMap.ext fun name => Option.ext fun i => ?_
  rw [hp, hq]

/-- An insertion that succeeds puts the task behind the others. -/
theorem tasks_of_insert {g h : TaskGraph} {t : Task} (e : g.insert t = .ok h) :
    h.tasks = g.tasks ++ [t] := by
  unfold insert at e
  split at e
  · cases e
  · cases e
    rfl

/-- A name is taken if it has a position. -/
theorem contains_eq_isSome (g : TaskGraph) (name : String) :
    g.contains name = (g.position? name).isSome := rfl

/-- A task is handed back exactly if its name is taken, and it comes back as it was. -/
theorem insert_eq_error_iff {g : TaskGraph} {t rejected : Task} :
    g.insert t = .error rejected ↔ g.contains t.name ∧ t = rejected := by
  rw [contains_eq_isSome]
  unfold insert
  split <;> rename_i h <;> simp [h]

/-- However tasks are changed, they stay under their names and in their order. -/
theorem names_mapTasks (g : TaskGraph) (f : Task → Task) : (g.mapTasks f).names = g.names := by
  simp [names, mapTasks, keepName, Function.comp_def]

/-- A change of a task leaves all names alone. -/
theorem names_modify (g : TaskGraph) (name : String) (f : Task → Task) :
    (g.modify name f).names = g.names := by
  unfold modify
  split
  · rfl
  · refine List.ext_getElem? fun j => ?_
    simp only [names, List.getElem?_map, List.getElem?_modify]
    cases g.tasks[j]? with
    | none => simp
    | some t =>
      simp only [Option.map_some]
      split <;> simp [keepName]

/-- The task found under a name carries it. -/
theorem name_of_get? {g : TaskGraph} {name : String} {t : Task} (h : g.get? name = some t) :
    t.name = name := by
  obtain ⟨i, hi, ht⟩ := Option.bind_eq_some_iff.1 h
  have := position?_eq_some_iff.1 hi
  simp_all

end TaskGraph

end BuildGraph
