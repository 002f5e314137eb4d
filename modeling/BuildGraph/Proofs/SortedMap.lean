import Mathlib.Data.List.Nodup
import BuildGraph.SortedMap

/-!
# Bindings made one after the other

Of many bindings made one after the other, the last one of a key is found. Making them again therefore
changes nothing, and a list of bindings may be cut anywhere: the map of the first part, overridden by
the map of the second, is the map of the whole.
-/

namespace BuildGraph.SortedMap

variable {κ υ : Type} [Ord κ] [Std.TransOrd κ] [Std.LawfulEqOrd κ]

/-- A map with the bindings of another one in place of its own. -/
def override (m n : SortedMap κ υ) : SortedMap κ υ :=
  n.entries.foldl (fun m e => m.insert e.1 e.2) m

variable [DecidableEq κ]

/-- Of many bindings made one after the other, the last one of a key is found. -/
theorem find?_foldl_insert (l : List (κ × υ)) (m : SortedMap κ υ) (key : κ) :
    (l.foldl (fun m e => m.insert e.1 e.2) m).find? key =
      ((l.reverse.find? (·.1 = key)).map (·.2)).or (m.find? key) := by
  induction l generalizing m with
  | nil => rfl
  | cons e l ih =>
    rw [List.foldl_cons, ih, List.reverse_cons, List.find?_append, find?_insert]
    cases l.reverse.find? (·.1 = key) with
    | some e' => rfl
    | none =>
      by_cases h : key = e.1
      · simp [h]
      · simp [h, Ne.symm h]

/-- Making the same bindings again changes nothing. -/
theorem foldl_insert_foldl_insert (l : List (κ × υ)) (m : SortedMap κ υ) :
    l.foldl (fun m e => m.insert e.1 e.2) (l.foldl (fun m e => m.insert e.1 e.2) m) =
      l.foldl (fun m e => m.insert e.1 e.2) m := by
  refine ext fun key => ?_
  rw [find?_foldl_insert, find?_foldl_insert]
  cases (l.reverse.find? (·.1 = key)).map (·.2) <;> rfl

/-- In a map made from a list the last value of a key counts. -/
theorem find?_ofList (l : List (κ × υ)) (key : κ) :
    (ofList l).find? key = (l.reverse.find? (·.1 = key)).map (·.2) := by
  rw [ofList, find?_foldl_insert, find?_empty, Option.or_none]

/-- Bindings of distinct keys are all found. -/
theorem find?_foldl_insert_eq_some_iff {l : List (κ × υ)} (hl : (l.map (·.1)).Nodup) {key : κ}
    {value : υ} :
    (l.foldl (fun m e => m.insert e.1 e.2) SortedMap.empty).find? key = some value ↔
      (key, value) ∈ l := by
  rw [find?_foldl_insert, find?_empty, Option.or_none, Option.map_eq_some_iff]
  constructor
  · rintro ⟨e, he, rfl⟩
    have hkey : e.1 = key := by simpa using List.find?_some he
    rw [← hkey]
    exact List.mem_reverse.mp (List.mem_of_find?_eq_some he)
  · intro hm
    cases hf : l.reverse.find? (·.1 = key) with
    | none =>
      have hn := List.find?_eq_none.mp hf _ (List.mem_reverse.mpr hm)
      simp at hn
    | some e =>
      have hkey : e.1 = key := by simpa using List.find?_some hf
      have he : e ∈ l := List.mem_reverse.mp (List.mem_of_find?_eq_some hf)
      have heq : e = (key, value) := List.inj_on_of_nodup_map hl he hm hkey
      exact ⟨e, rfl, by rw [heq]⟩

/-- A key is bound exactly if one of the bindings is for it. -/
theorem contains_foldl_insert {l : List (κ × υ)} (hl : (l.map (·.1)).Nodup) (key : κ) :
    (l.foldl (fun m e => m.insert e.1 e.2) SortedMap.empty).contains key ↔ key ∈ l.map (·.1) := by
  rw [contains, Option.isSome_iff_exists, List.mem_map]
  simp only [find?_foldl_insert_eq_some_iff hl]
  constructor
  · rintro ⟨value, hm⟩
    exact ⟨_, hm, rfl⟩
  · rintro ⟨e, he, rfl⟩
    exact ⟨e.2, he⟩

omit [DecidableEq κ] [Std.TransOrd κ] in
/-- No key comes twice. -/
theorem nodup_keys (m : SortedMap κ υ) : m.keys.Nodup := by
  refine List.pairwise_map.mpr (m.increasing.imp ?_)
  intro a b hab heq
  rw [heq] at hab
  simp at hab

/-- Bindings of different keys are all kept. -/
theorem size_foldl_insert {l : List (κ × υ)} (hl : (l.map (·.1)).Nodup) :
    (l.foldl (fun m e => m.insert e.1 e.2) SortedMap.empty).size = l.length := by
  have hperm : (l.foldl (fun m e => m.insert e.1 e.2) SortedMap.empty).keys.Perm (l.map (·.1)) := by
    refine (List.perm_ext_iff_of_nodup (nodup_keys _) hl).mpr fun key => ?_
    rw [mem_keys_iff, contains_foldl_insert hl]
  simpa only [keys, size, List.length_map] using hperm.length_eq

/-- The entries of a map are bindings that lead to it. -/
theorem ofList_entries (m : SortedMap κ υ) : ofList m.entries = m := by
  refine ext fun key => Option.ext fun value => ?_
  exact (find?_foldl_insert_eq_some_iff m.nodup_keys).trans mem_entries_iff

/-- The other map's binding of a key counts, if it has one. -/
theorem find?_override (m n : SortedMap κ υ) (key : κ) :
    (m.override n).find? key = (n.find? key).or (m.find? key) := by
  rw [override, find?_foldl_insert, ← find?_ofList, ofList_entries]

/-- A list of bindings may be cut anywhere. -/
theorem ofList_append (l l' : List (κ × υ)) :
    ofList (l ++ l') = (ofList l).override (ofList l') := by
  refine ext fun key => ?_
  rw [find?_override, find?_ofList l', ofList, List.foldl_append, find?_foldl_insert]
  rfl

end BuildGraph.SortedMap
