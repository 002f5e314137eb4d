import BuildGraph.Proofs.TaskGraph

/-!
# Task graphs as lists

Whatever is done with the tasks of a graph, the answers are those of a list of tasks in the order of their
registration, searched from the front by name. The index therefore never shows, except that a position
once answered stays the position of its name. Edits may change everything of a task but its name.
-/

namespace BuildGraph.TaskGraph

/-! ## Operations -/

/-- A change of a task under its name. -/
structure Edit where
  apply : Task → Task
  name_apply : ∀ t, (apply t).name = t.name

/-- An operation on tasks. -/
inductive Operation where
  | insert (t : Task)
  | get (name : String)
  /-- Change the task of a name in its place. -/
  | edit (name : String) (change : Edit)
  | position (name : String)
  | contains (name : String)
  | list
  /-- Change all tasks in their places. -/
  | editAll (change : Edit)
  | size

/-- What an operation answers. An edit answers with what it is about to change. -/
inductive Answer where
  | inserted (position : Nat)
  /-- The task that was offered comes back. -/
  | refused (t : Task)
  | task (t : Option Task)
  | position (i : Option Nat)
  | truth (value : Bool)
  | tasks (ts : List Task)
  | number (n : Nat)
deriving DecidableEq

/-- What an operation on a graph answers and leaves. -/
def Operation.onGraph (g : TaskGraph) : Operation → Answer × TaskGraph
  | .insert t =>
    match g.insert t with
    | .ok grown => (.inserted g.size, grown)
    | .error rejected => (.refused rejected, g)
  | .get name => (.task (g.get? name), g)
  | .edit name change => (.task (g.get? name), g.modify name change.apply)
  | .position name => (.position (g.position? name), g)
  | .contains name => (.truth (g.contains name), g)
  | .list => (.tasks g.tasks, g)
  | .editAll change => (.tasks g.tasks, g.mapTasks change.apply)
  | .size => (.number g.size, g)

/-- What an operation on a list of tasks answers and leaves, if every name is searched for from the front. -/
def Operation.onList (ts : List Task) : Operation → Answer × List Task
  | .insert t =>
    if ts.any (·.name == t.name) then (.refused t, ts) else (.inserted ts.length, ts ++ [t])
  | .get name => (.task (ts.find? (·.name == name)), ts)
  | .edit name change =>
    (.task (ts.find? (·.name == name)), ts.modify (ts.findIdx (·.name == name)) change.apply)
  | .position name => (.position (ts.findIdx? (·.name == name)), ts)
  | .contains name => (.truth (ts.any (·.name == name)), ts)
  | .list => (.tasks ts, ts)
  | .editAll change => (.tasks ts, ts.map change.apply)
  | .size => (.number ts.length, ts)

/-- What operations answer one after the other, and what they leave. -/
def runAll {σ : Type} (step : σ → Operation → Answer × σ) (s : σ) :
    List Operation → List Answer × σ
  | [] => ([], s)
  | operation :: operations =>
    let (answer, next) := step s operation
    let (answers, last) := runAll step next operations
    (answer :: answers, last)

/-- If one step looks the same through a view of the state, a run does. -/
theorem runAll_view {σ τ : Type} {step : σ → Operation → Answer × σ}
    {step' : τ → Operation → Answer × τ} {view : σ → τ}
    (h : ∀ s operation, (step s operation).map id view = step' (view s) operation)
    (s : σ) (operations : List Operation) :
    (runAll step s operations).map id view = runAll step' (view s) operations := by
  induction operations generalizing s with
  | nil => rfl
  | cons operation operations ih =>
    rw [runAll, runAll, ← h s operation]
    dsimp only [Prod.map]
    rw [← ih]
    rfl

/-! ## One operation -/

/-- An edit changes no name, so that it may be applied to the tasks of a graph directly. -/
theorem keepName_edit (change : Edit) : keepName change.apply = change.apply := by
  funext t
  rw [keepName, ← change.name_apply t]

/-- A name is taken exactly if some task of the list is called so. -/
theorem contains_eq_any (g : TaskGraph) (name : String) :
    g.contains name = g.tasks.any (·.name == name) := by
  rw [contains_eq_isSome_get?, get?_eq_find?, List.isSome_find?]

/-- The index holds the place at which a search stops. -/
theorem position?_eq_findIdx? (g : TaskGraph) (name : String) :
    g.position? name = g.tasks.findIdx? (·.name == name) := by
  cases h : g.tasks.findIdx? (·.name == name) with
  | none =>
    have hfree : g.contains name = false := by
      rw [contains_eq_any, List.any_eq_false]
      intro t ht
      rw [List.findIdx?_eq_none_iff.mp h t ht]
      exact Bool.false_ne_true
    rwa [contains_eq_isSome, Option.isSome_eq_false_iff, Option.isNone_iff_eq_none] at hfree
  | some i =>
    obtain ⟨hi, hname, -⟩ := List.findIdx?_eq_some_iff_getElem.mp h
    refine position?_eq_some_iff.mpr ?_
    rw [List.getElem?_eq_getElem hi, Option.map_some, eq_of_beq hname]

/-- A task is changed where a search for its name stops. -/
theorem tasks_modify (g : TaskGraph) (name : String) (f : Task → Task) :
    (g.modify name f).tasks = g.tasks.modify (g.tasks.findIdx (·.name == name)) (keepName f) := by
  unfold modify
  rw [position?_eq_findIdx?]
  cases h : g.tasks.findIdx? (·.name == name) with
  | none =>
    have hlength : g.tasks.findIdx (·.name == name) = g.tasks.length :=
      List.findIdx?_eq_none_iff_findIdx_eq.mp h
    rw [hlength, List.modify_eq_self (Nat.le_refl _)]
  | some i =>
    have hi : g.tasks.findIdx (·.name == name) = i := (List.findIdx?_eq_some_iff_findIdx_eq.mp h).2
    rw [hi]

/-- An operation on a graph looks like one on the list of its tasks. -/
theorem onGraph_view (g : TaskGraph) (operation : Operation) :
    (operation.onGraph g).map id tasks = operation.onList g.tasks := by
  cases operation with
  | insert t =>
    rw [Operation.onGraph, Operation.onList, ← contains_eq_any]
    cases hc : g.contains t.name with
    | true =>
      rw [insert_of_taken hc]
      rfl
    | false =>
      obtain ⟨grown, hinsert, htasks⟩ := insert_of_free (contains_eq_false_iff.mp hc)
      rw [hinsert, ← htasks]
      rfl
  | get name =>
    rw [Operation.onGraph, Operation.onList, ← get?_eq_find?]
    rfl
  | edit name change =>
    have htasks := g.tasks_modify name change.apply
    rw [keepName_edit] at htasks
    rw [Operation.onGraph, Operation.onList, ← get?_eq_find?, ← htasks]
    rfl
  | position name =>
    rw [Operation.onGraph, Operation.onList, ← position?_eq_findIdx?]
    rfl
  | contains name =>
    rw [Operation.onGraph, Operation.onList, ← contains_eq_any]
    rfl
  | list => rfl
  | editAll change =>
    have htasks : (g.mapTasks change.apply).tasks = g.tasks.map (keepName change.apply) := rfl
    rw [keepName_edit] at htasks
    rw [Operation.onGraph, Operation.onList, ← htasks]
    rfl
  | size => rfl

/-- No operation takes a name away or puts one in front of another. -/
theorem names_onGraph (g : TaskGraph) (operation : Operation) :
    g.names <+: (operation.onGraph g).2.names := by
  cases operation with
  | insert t =>
    rw [Operation.onGraph]
    cases h : g.insert t with
    | ok grown =>
      refine ⟨[t.name], ?_⟩
      rw [names, names, tasks_of_insert h, List.map_append]
      rfl
    | error rejected => exact List.prefix_rfl
  | edit name change => exact (g.names_modify name change.apply).symm ▸ List.prefix_rfl
  | editAll change => exact (g.names_mapTasks change.apply).symm ▸ List.prefix_rfl
  | _ => exact List.prefix_rfl

/-! ## Runs -/

/-- Operations put names behind the others, and remove or reorder none. -/
theorem names_runAll (g : TaskGraph) (operations : List Operation) :
    g.names <+: (runAll Operation.onGraph g operations).2.names := by
  induction operations generalizing g with
  | nil => exact List.prefix_rfl
  | cons operation operations ih => exact (g.names_onGraph operation).trans (ih _)

/-- The position of a name is its index in the list of names. -/
theorem position?_eq_some_iff_names {g : TaskGraph} {name : String} {i : Nat} :
    g.position? name = some i ↔ g.names[i]? = some name := by
  rw [position?_eq_some_iff, names, List.getElem?_map]

/-- A name keeps the position that it has. -/
theorem position?_runAll {g : TaskGraph} {name : String} {i : Nat} (h : g.position? name = some i)
    (operations : List Operation) :
    (runAll Operation.onGraph g operations).2.position? name = some i := by
  rw [position?_eq_some_iff_names] at h ⊢
  obtain ⟨hi, hname⟩ := List.getElem?_eq_some_iff.mp h
  rw [List.prefix_iff_getElem?.mp (g.names_runAll operations) i hi, hname]

/-- Operations on a graph that starts without tasks are answered as by a search through a list, and leave the
tasks of that list. From there on a task is refused exactly if its name is taken; then it comes back as it was
and nothing changes. A name is registered exactly if it has a position, which is that of its task and does not
change whatever is done next. -/
theorem runAll_like_list (operations : List Operation) :
    ∃ answers g, runAll Operation.onGraph empty operations = (answers, g) ∧
      runAll Operation.onList [] operations = (answers, g.tasks) ∧
      (∀ t, t.name ∈ g.names → Operation.onGraph g (.insert t) = (.refused t, g)) ∧
      (∀ t, t.name ∉ g.names → ∃ grown,
        Operation.onGraph g (.insert t) = (.inserted g.size, grown) ∧ grown.tasks = g.tasks ++ [t]) ∧
      (∀ name i, g.position? name = some i ↔ g.names[i]? = some name) ∧
      ∀ name i, g.position? name = some i →
        ∀ more, (runAll Operation.onGraph g more).2.position? name = some i := by
  have hlist := runAll_view onGraph_view empty operations
  cases h : runAll Operation.onGraph empty operations with
  | mk answers g =>
    rw [h] at hlist
    refine ⟨answers, g, rfl, hlist.symm, ?_, ?_, fun _ _ => position?_eq_some_iff_names,
      fun _ _ hi => position?_runAll hi⟩
    · intro t ht
      rw [Operation.onGraph, insert_of_taken (contains_iff_mem_names.mpr ht)]
    · intro t ht
      obtain ⟨grown, hinsert, htasks⟩ := insert_of_free (get?_eq_none_iff.mpr ht)
      refine ⟨grown, ?_, htasks⟩
      rw [Operation.onGraph, hinsert]

/-- A task that is offered twice. -/
def checkTask : Task := { name := "check", action := .compile }

/-- A change of the group of a task. -/
def regrouped : Edit := ⟨fun t => { t with group := some "verification" }, fun _ => rfl⟩

/-- Registrations before and after a change. -/
def checkOperations : List Operation :=
  [.insert { checkTask with name := "classes" }, .insert checkTask, .edit "check" regrouped,
    .insert checkTask, .get "check", .position "check", .size]

/-- A task is refused also if the one that has its name was changed, and that one stays where it is. -/
theorem checkTask_refused :
    ∃ g, runAll Operation.onGraph empty checkOperations =
        ([.inserted 0, .inserted 1, .task (some checkTask), .refused checkTask,
          .task (some (regrouped.apply checkTask)), .position (some 1), .number 2], g) ∧
      Operation.onGraph g (.insert checkTask) = (.refused checkTask, g) ∧
      ∀ more, (runAll Operation.onGraph g more).2.position? "check" = some 1 := by
  obtain ⟨answers, g, hgraph, hlist, hrefused, _, hposition, hstays⟩ := runAll_like_list checkOperations
  have hanswers : answers = (runAll Operation.onList [] checkOperations).1 := by rw [hlist]
  have htasks : g.tasks = (runAll Operation.onList [] checkOperations).2 := by rw [hlist]
  have hnames : g.names = ["classes", "check"] := by
    rw [names, htasks]
    decide
  refine ⟨g, ?_, hrefused checkTask ?_, hstays "check" 1 ((hposition "check" 1).mpr ?_)⟩
  · rw [hgraph, hanswers]
    rfl
  · rw [hnames]
    decide
  · rw [hnames]
    decide

end BuildGraph.TaskGraph
