/-!
# Finite maps in key order

A map is the list of its entries with strictly increasing keys, so two maps with the same bindings
are the same value and every listing comes out in key order. The main statements are the look-up
laws of `insert` and extensionality by look-up.
-/

namespace BuildGraph

/-- Bindings from keys to values, listed by strictly increasing key. -/
structure SortedMap (κ : Type) (υ : Type) [Ord κ] where
  /-- The bindings, smallest key first. -/
  entries : List (κ × υ)
  /-- Every key is smaller than all keys after it. -/
  increasing : entries.Pairwise fun a b => compare a.1 b.1 = .lt

namespace SortedMap

variable {κ υ : Type} [Ord κ]

instance [DecidableEq κ] [DecidableEq υ] : DecidableEq (SortedMap κ υ)
  | ⟨a, _⟩, ⟨b, _⟩ => decidable_of_iff (a = b) (by simp)

/-- The map without bindings. -/
def empty : SortedMap κ υ := ⟨[], .nil⟩

instance : Inhabited (SortedMap κ υ) := ⟨empty⟩

instance : EmptyCollection (SortedMap κ υ) := ⟨empty⟩

/-- The value bound to `key` in a list of entries. -/
def lookup (key : κ) : List (κ × υ) → Option υ
  | [] => none
  | (k, v) :: rest => if compare key k = .eq then some v else lookup key rest

/-- The value bound to `key`. -/
def find? (m : SortedMap κ υ) (key : κ) : Option υ := lookup key m.entries

/-- Whether `key` is bound. -/
def contains (m : SortedMap κ υ) (key : κ) : Bool := (m.find? key).isSome

/-- The number of bindings. -/
def size (m : SortedMap κ υ) : Nat := m.entries.length

/-- All bound keys in order. -/
def keys (m : SortedMap κ υ) : List κ := m.entries.map (·.1)

/-- All bound values in the order of their keys. -/
def values (m : SortedMap κ υ) : List υ := m.entries.map (·.2)

/-- The same keys with changed values. -/
def mapValues {ω : Type} (m : SortedMap κ υ) (f : κ → υ → ω) : SortedMap κ ω where
  entries := m.entries.map fun e => (e.1, f e.1 e.2)
  increasing := List.pairwise_map.2 m.increasing

/-- Put a binding at its place, dropping an earlier one of the same key. -/
def insertEntry (key : κ) (value : υ) : List (κ × υ) → List (κ × υ)
  | [] => [(key, value)]
  | (k, v) :: rest =>
    match compare key k with
    | .lt => (key, value) :: (k, v) :: rest
    | .eq => (key, value) :: rest
    | .gt => (k, v) :: insertEntry key value rest

/-- Inserting brings in nothing but the new entry. -/
theorem mem_insertEntry {key : κ} {value : υ} {e : κ × υ} {l : List (κ × υ)}
    (h : e ∈ insertEntry key value l) : e = (key, value) ∨ e ∈ l := by
  induction l with
  | nil => simpa [insertEntry] using h
  | cons hd tl ih =>
    obtain ⟨k, v⟩ := hd
    rw [insertEntry] at h
    split at h <;> grind

variable [Std.TransOrd κ] [Std.LawfulEqOrd κ]

/-- Inserting keeps keys in strict order, so that an inserted key still occurs once. -/
theorem insertEntry_increasing {key : κ} {value : υ} {l : List (κ × υ)}
    (h : l.Pairwise fun a b => compare a.1 b.1 = .lt) :
    (insertEntry key value l).Pairwise fun a b => compare a.1 b.1 = .lt := by
  induction l with
  | nil => simp [insertEntry]
  | cons hd tl ih =>
    obtain ⟨k, v⟩ := hd
    rw [List.pairwise_cons] at h
    rw [insertEntry]
    split
    case h_1 hlt =>
      refine List.pairwise_cons.2 ⟨?_, List.pairwise_cons.2 h⟩
      intro e he
      rcases List.mem_cons.1 he with rfl | he
      · exact hlt
      · exact Std.TransCmp.lt_trans hlt (h.1 e he)
    case h_2 heq =>
      obtain rfl := Std.LawfulEqOrd.eq_of_compare heq
      exact List.pairwise_cons.2 h
    case h_3 hgt =>
      refine List.pairwise_cons.2 ⟨?_, ih h.2⟩
      intro e he
      rcases mem_insertEntry he with rfl | he
      · exact Std.OrientedCmp.lt_of_gt hgt
      · exact h.1 e he

/-- Bind `key` to `value`; a later binding replaces an earlier one. -/
def insert (m : SortedMap κ υ) (key : κ) (value : υ) : SortedMap κ υ :=
  ⟨insertEntry key value m.entries, insertEntry_increasing m.increasing⟩

/-- The map of a list of bindings in which later bindings win. -/
def ofList (l : List (κ × υ)) : SortedMap κ υ :=
  l.foldl (fun m e => m.insert e.1 e.2) empty

omit [Std.TransOrd κ] [Std.LawfulEqOrd κ] in
@[simp] theorem find?_empty (key : κ) : (empty : SortedMap κ υ).find? key = none := rfl

omit [Std.TransOrd κ] in
/-- The inserted value is found under its key, in whatever place the key had before. -/
theorem lookup_insertEntry_self (key : κ) (value : υ) (l : List (κ × υ)) :
    lookup key (insertEntry key value l) = some value := by
  induction l with
  | nil => simp [insertEntry, lookup]
  | cons hd tl ih =>
    obtain ⟨k, v⟩ := hd
    rw [insertEntry]
    split
    · simp [lookup]
    · simp [lookup]
    · rename_i h; simp [lookup, h, ih]

omit [Std.TransOrd κ] in
/-- Inserting does not touch what is found under other keys. -/
theorem lookup_insertEntry_of_ne {key other : κ} (h : other ≠ key) (value : υ) (l : List (κ × υ)) :
    lookup other (insertEntry key value l) = lookup other l := by
  have hne : compare other key ≠ .eq := fun e => h (Std.LawfulEqOrd.eq_of_compare e)
  induction l with
  | nil => simp [insertEntry, lookup, hne]
  | cons hd tl ih =>
    obtain ⟨k, v⟩ := hd
    rw [insertEntry]
    split
    · simp [lookup, hne]
    · rename_i heq
      obtain rfl := Std.LawfulEqOrd.eq_of_compare heq
      simp [lookup, hne]
    · simp only [lookup, ih]

/-- The binding just made is the one found. -/
@[simp] theorem find?_insert_self (m : SortedMap κ υ) (key : κ) (value : υ) :
    (m.insert key value).find? key = some value :=
  lookup_insertEntry_self key value m.entries

/-- A binding leaves the other keys alone. -/
theorem find?_insert_of_ne (m : SortedMap κ υ) {key other : κ} (h : other ≠ key) (value : υ) :
    (m.insert key value).find? other = m.find? other :=
  lookup_insertEntry_of_ne h value m.entries

/-- What an insertion makes of every look-up. -/
theorem find?_insert [DecidableEq κ] (m : SortedMap κ υ) (key other : κ) (value : υ) :
    (m.insert key value).find? other = if other = key then some value else m.find? other := by
  split
  · rename_i h; subst h; exact m.find?_insert_self other value
  · rename_i h; exact m.find?_insert_of_ne h value

omit [Std.TransOrd κ] in
/-- What is found is listed. -/
theorem mem_of_lookup {key : κ} {value : υ} {l : List (κ × υ)} (h : lookup key l = some value) :
    (key, value) ∈ l := by
  induction l with
  | nil => simp [lookup] at h
  | cons hd tl ih =>
    obtain ⟨k, v⟩ := hd
    rw [lookup] at h
    split at h
    · rename_i heq
      obtain rfl := Std.LawfulEqOrd.eq_of_compare heq
      simp_all
    · exact List.mem_cons_of_mem _ (ih h)

omit [Std.TransOrd κ] in
/-- What is listed is found, since no key comes twice in strict order. -/
theorem lookup_of_mem {key : κ} {value : υ} {l : List (κ × υ)}
    (hl : l.Pairwise fun a b => compare a.1 b.1 = .lt) (h : (key, value) ∈ l) :
    lookup key l = some value := by
  induction l with
  | nil => simp at h
  | cons hd tl ih =>
    obtain ⟨k, v⟩ := hd
    rw [List.pairwise_cons] at hl
    rw [lookup]
    rcases List.mem_cons.1 h with e | h
    · obtain ⟨rfl, rfl⟩ := Prod.mk.inj e
      simp
    · have hlt := hl.1 _ h
      rw [if_neg, ih hl.2 h]
      intro heq
      obtain rfl := Std.LawfulEqOrd.eq_of_compare heq
      simp at hlt

omit [Std.TransOrd κ] in
/-- A binding is listed exactly if it is found. -/
theorem mem_entries_iff {m : SortedMap κ υ} {key : κ} {value : υ} :
    (key, value) ∈ m.entries ↔ m.find? key = some value :=
  ⟨lookup_of_mem m.increasing, mem_of_lookup⟩

/-- Maps that agree on every look-up are equal. -/
theorem ext {m n : SortedMap κ υ} (h : ∀ key, m.find? key = n.find? key) : m = n := by
  obtain ⟨a, ha⟩ := m
  obtain ⟨b, hb⟩ := n
  suffices a = b by subst this; rfl
  have hmem : ∀ e, e ∈ a ↔ e ∈ b := fun (k, v) => by
    rw [mem_entries_iff (m := ⟨a, ha⟩), mem_entries_iff (m := ⟨b, hb⟩), h k]
  clear h
  induction a generalizing b with
  | nil =>
    cases b with
    | nil => rfl
    | cons y ys => exact absurd ((hmem y).2 (List.mem_cons_self ..)) (by simp)
  | cons x xs ih =>
    cases b with
    | nil => exact absurd ((hmem x).1 (List.mem_cons_self ..)) (by simp)
    | cons y ys =>
      rw [List.pairwise_cons] at ha hb
      have hxy : x = y := by
        rcases List.mem_cons.1 ((hmem x).1 (List.mem_cons_self ..)) with e | hx
        · exact e
        · rcases List.mem_cons.1 ((hmem y).2 (List.mem_cons_self ..)) with e | hy
          · exact e.symm
          · have := Std.TransCmp.lt_trans (ha.1 _ hy) (hb.1 _ hx)
            simp at this
      subst hxy
      refine congrArg (x :: ·) (ih ha.2 ys hb.2 fun e => ?_)
      constructor
      · intro he
        rcases List.mem_cons.1 ((hmem e).1 (List.mem_cons_of_mem _ he)) with rfl | he'
        · have := ha.1 _ he
          simp at this
        · exact he'
      · intro he
        rcases List.mem_cons.1 ((hmem e).2 (List.mem_cons_of_mem _ he)) with rfl | he'
        · have := hb.1 _ he
          simp at this
        · exact he'

omit [Std.TransOrd κ] in
/-- Changing values changes what is found and nothing else. -/
theorem lookup_map {ω : Type} (f : κ → υ → ω) (key : κ) (l : List (κ × υ)) :
    lookup key (l.map fun e => (e.1, f e.1 e.2)) = (lookup key l).map (f key) := by
  induction l with
  | nil => rfl
  | cons hd tl ih =>
    obtain ⟨k, v⟩ := hd
    rw [List.map_cons, lookup, lookup]
    by_cases h : compare key k = .eq
    · obtain rfl := Std.LawfulEqOrd.eq_of_compare h
      simp
    · simpa [h] using ih

omit [Std.TransOrd κ] in
theorem find?_mapValues {ω : Type} (m : SortedMap κ υ) (f : κ → υ → ω) (key : κ) :
    (m.mapValues f).find? key = (m.find? key).map (f key) :=
  lookup_map f key m.entries

omit [Std.TransOrd κ] in
/-- A key is listed exactly if it is bound. -/
theorem mem_keys_iff {m : SortedMap κ υ} {key : κ} : key ∈ m.keys ↔ m.contains key := by
  simp only [keys, List.mem_map, contains, Option.isSome_iff_exists]
  constructor
  · rintro ⟨⟨k, v⟩, he, rfl⟩
    exact ⟨v, mem_entries_iff.1 he⟩
  · rintro ⟨v, hv⟩
    exact ⟨(key, v), mem_entries_iff.2 hv, rfl⟩

omit [Std.TransOrd κ] in
/-- A value is listed exactly if a key is bound to it. -/
theorem mem_values_iff {m : SortedMap κ υ} {value : υ} :
    value ∈ m.values ↔ ∃ key, m.find? key = some value := by
  simp only [values, List.mem_map]
  constructor
  · rintro ⟨⟨k, v⟩, he, rfl⟩
    exact ⟨k, mem_entries_iff.1 he⟩
  · rintro ⟨k, hv⟩
    exact ⟨(k, value), mem_entries_iff.2 hv, rfl⟩

/-- Making a binding that is already there changes nothing. -/
theorem insert_of_find? [DecidableEq κ] {m : SortedMap κ υ} {key : κ} {value : υ}
    (h : m.find? key = some value) : m.insert key value = m := by
  refine ext fun other => ?_
  rw [find?_insert]
  split
  · rename_i e; rw [e, h]
  · rfl

end SortedMap

/-- A finite set listed by strictly increasing element. -/
abbrev SortedSet (κ : Type) [Ord κ] := SortedMap κ Unit

namespace SortedSet

variable {κ : Type} [Ord κ]

/-- The elements in order. -/
def elements (s : SortedSet κ) : List κ := SortedMap.keys s

variable [Std.TransOrd κ] [Std.LawfulEqOrd κ]

/-- Add an element; adding one that is present changes nothing. -/
def add (s : SortedSet κ) (x : κ) : SortedSet κ := SortedMap.insert s x ()

/-- The set of the members of a list. -/
def ofList (l : List κ) : SortedSet κ := l.foldl add SortedMap.empty

/-- Adding an element changes membership for that element only. -/
theorem contains_add [DecidableEq κ] (s : SortedSet κ) (x y : κ) :
    (s.add x).contains y = (decide (y = x) || s.contains y) := by
  unfold add SortedMap.contains
  rw [SortedMap.find?_insert]
  split <;> simp_all

/-- Adding a member changes nothing. -/
theorem add_of_contains [DecidableEq κ] {s : SortedSet κ} {x : κ} (h : s.contains x) :
    s.add x = s :=
  SortedMap.insert_of_find? (Option.isSome_iff_exists.1 h).choose_spec

end SortedSet

end BuildGraph
