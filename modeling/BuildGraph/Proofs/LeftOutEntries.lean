import BuildGraph.Document
import BuildGraph.Proofs.SortedMap

/-!
# Documents with entries left out

Entries may be left out of a document at any set of places, whole tables as well as single values below
them; elements of arrays stay. A name is then looked up as before if its entry is kept. So a field is read
as before if its value is, or if it is left out and the value is the one that stands in for it.
-/

namespace BuildGraph.Document

/-- A step into a document: to the value of a name, or to an element. -/
inductive Step where
  | name (name : String)
  | item (i : Nat)
deriving DecidableEq, Repr

/-- Where something is in a document. -/
abbrev Place := List Step

/-- The dropped places behind a step, as they are seen from there. -/
def inside (step : Step) (dropped : Place → Bool) : Place → Bool := fun place => dropped (step :: place)

mutual

/-- A document without the entries at the dropped places. -/
def without (dropped : Place → Bool) : Document → Document
  | .array items => .array (withoutItems dropped 0 items)
  | .table entries => .table (withoutEntries dropped entries)
  | d => d

/-- The elements from the place `i` on, each without its dropped entries. -/
def withoutItems (dropped : Place → Bool) (i : Nat) : List Document → List Document
  | [] => []
  | d :: ds => d.without (inside (.item i) dropped) :: withoutItems dropped (i + 1) ds

/-- The entries that are kept, each without those dropped below it. -/
def withoutEntries (dropped : Place → Bool) : List (String × Document) → List (String × Document)
  | [] => []
  | (name, d) :: es =>
    if dropped [.name name] then withoutEntries dropped es
    else (name, d.without (inside (.name name) dropped)) :: withoutEntries dropped es

end

/-- The value of a name in a table. -/
def value? (name : String) : Document → Option Document
  | .table entries => entries.lookup name
  | _ => none

/-! ## What is left -/

mutual

/-- A document of which nothing is dropped stays. -/
theorem without_eq_self {dropped : Place → Bool} (h : ∀ step place, dropped (step :: place) = false) :
    (d : Document) → d.without dropped = d
  | .null => rfl
  | .boolean _ => rfl
  | .integer _ => rfl
  | .real _ => rfl
  | .text _ => rfl
  | .dateTime _ => rfl
  | .array items => by rw [without, withoutItems_eq_self h 0 items]
  | .table entries => by rw [without, withoutEntries_eq_self h entries]

/-- Elements stay as they are if nothing below any of them is dropped. -/
theorem withoutItems_eq_self {dropped : Place → Bool} (h : ∀ step place, dropped (step :: place) = false)
    (i : Nat) : (ds : List Document) → withoutItems dropped i ds = ds
  | [] => rfl
  | d :: ds => by
    rw [withoutItems, without_eq_self (fun step place => h (.item i) (step :: place)) d,
      withoutItems_eq_self h (i + 1) ds]

/-- Entries stay as they are if none of them is dropped, and nothing below. -/
theorem withoutEntries_eq_self {dropped : Place → Bool}
    (h : ∀ step place, dropped (step :: place) = false) :
    (es : List (String × Document)) → withoutEntries dropped es = es
  | [] => rfl
  | (name, d) :: es => by
    have hkept : dropped [.name name] ≠ true := by simp [h]
    rw [withoutEntries, if_neg hkept, without_eq_self (fun step place => h (.name name) (step :: place)) d,
      withoutEntries_eq_self h es]

end

variable {α : Type} {dropped : Place → Bool} {name : String} {d e : Document} {f : Document → Option α}
  {default value : α} {xs : List α} {write : α → Document}

/-- A name is found as before, with less below it, unless its own place is dropped. -/
theorem lookup_withoutEntries (dropped : Place → Bool) (name : String)
    (entries : List (String × Document)) :
    (withoutEntries dropped entries).lookup name =
      if dropped [.name name] then none
      else (entries.lookup name).map (without (inside (.name name) dropped)) := by
  induction entries with
  | nil => simp [withoutEntries]
  | cons e entries ih =>
    obtain ⟨other, d⟩ := e
    rw [withoutEntries]
    by_cases hn : name = other
    · subst hn
      by_cases hd : dropped [.name name]
      · rw [if_pos hd, ih, if_pos hd, if_pos hd]
      · rw [if_neg hd, if_neg hd, List.lookup_cons_self, List.lookup_cons_self, Option.map_some]
    · have hne : (name == other) = false := by simpa using hn
      split <;> simp [List.lookup_cons, hne, ih]

/-- An entry that is kept is found as before, up to what is dropped inside it. -/
theorem value?_without (dropped : Place → Bool) (name : String) (d : Document) :
    (d.without dropped).value? name =
      if dropped [.name name] then none
      else (d.value? name).map (without (inside (.name name) dropped)) := by
  cases d with
  | table entries =>
    rw [without]
    exact lookup_withoutEntries dropped name entries
  | _ => simp [without, value?]

/-! ## What is read -/

/-- A record is read from the entries that are left of a table. -/
theorem fields?_without (surplus : Surplus) (names : List String) {entries : List (String × Document)}
    (htable : d = table entries) :
    fields? surplus names (d.without dropped) =
      some (names.map fun name => (d.without dropped).value? name) := by
  rw [htable]
  rfl

/-- An entry that must be there is read if it is kept. -/
theorem bind_value?_without (hvalue : d.value? name = some e) (hkept : ¬ dropped [.name name])
    (hread : f (e.without (inside (.name name) dropped)) = some value) :
    ((d.without dropped).value? name).bind f = some value := by
  rw [value?_without, if_neg hkept, hvalue, Option.map_some, Option.bind_some, hread]

/-- An entry may be dropped if its value is the one that stands in for it. -/
theorem field_value?_without (hvalue : d.value? name = some e)
    (hread : f (e.without (inside (.name name) dropped)) = some value)
    (hdropped : dropped [.name name] → value = default) :
    field default f ((d.without dropped).value? name) = some value := by
  rw [value?_without]
  split
  · rename_i hd
    rw [field, hdropped hd]
  · rw [hvalue, Option.map_some, field, hread]

/-- The elements of an array are read if each of them is. -/
theorem list?_without
    (hread : ∀ i x, xs[i]? = some x → f ((write x).without (inside (.item i) dropped)) = some x) :
    list? f ((array (xs.map write)).without dropped) = some xs := by
  -- the elements are counted from the start of the array, so the induction is for any first place
  have hfrom : ∀ k, (∀ i x, xs[i]? = some x →
      f ((write x).without (inside (.item (k + i)) dropped)) = some x) →
      (withoutItems dropped k (xs.map write)).mapM f = some xs := by
    clear hread
    induction xs with
    | nil => exact fun _ _ => rfl
    | cons x xs ih =>
      intro k hread
      have hx : f ((write x).without (inside (.item k) dropped)) = some x := hread 0 x rfl
      have hxs : (withoutItems dropped (k + 1) (xs.map write)).mapM f = some xs := by
        refine ih (k + 1) fun i y hy => ?_
        rw [Nat.add_right_comm]
        exact hread (i + 1) y hy
      rw [List.map_cons, withoutItems, List.mapM_cons, hx, hxs]
      rfl
  refine hfrom 0 fun i x hx => ?_
  rw [Nat.zero_add]
  exact hread i x hx

/-- A list that is not written if it is empty is read like any other. -/
theorem field_list?_without
    (hvalue : d.value? name = if xs.isEmpty then none else some (.array (xs.map write)))
    (hread : ∀ i x, xs[i]? = some x →
      f ((write x).without (inside (.item i) (inside (.name name) dropped))) = some x)
    (hdropped : dropped [.name name] → xs = []) :
    field [] (list? f) ((d.without dropped).value? name) = some xs := by
  rw [value?_without]
  split
  · rename_i hd
    rw [field, hdropped hd]
  · cases xs with
    | nil => rw [hvalue, if_pos List.isEmpty_nil, Option.map_none, field]
    | cons x xs =>
      rw [hvalue, if_neg (by simp), Option.map_some, field]
      exact list?_without hread

/-- A table with free names gives its bindings back. -/
theorem map?_entries (hread : ∀ x, f (write x) = some x) (m : SortedMap String α) :
    map? f (table (m.entries.map fun e => (e.1, write e.2))) = some m := by
  have hentries : (m.entries.map fun e => (e.1, write e.2)).mapM
      (fun e : String × Document => (f e.2).map fun value => (e.1, value)) = some m.entries := by
    induction m.entries with
    | nil => rfl
    | cons e es ih =>
      rw [List.map_cons, List.mapM_cons, hread, ih]
      rfl
  rw [map?, entries?]
  simp only [Option.bind_eq_bind, Option.bind_some, hentries]
  exact congrArg some m.ofList_entries

end BuildGraph.Document
