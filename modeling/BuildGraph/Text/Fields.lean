/-!
# Fields between separators

Cutting a text at a separator character: at every occurrence, at the first, or at the last.
-/

namespace BuildGraph.Text

/-- The pieces between the occurrences of a separator; always at least one. -/
def fields (sep : Char) : List Char → List (List Char)
  | [] => [[]]
  | c :: cs =>
    if c = sep then [] :: fields sep cs
    else
      match fields sep cs with
      | [] => [[c]]
      | piece :: rest => (c :: piece) :: rest

/-- The text after the first separator, if there is one. -/
def afterFirst? (sep : Char) : List Char → Option (List Char)
  | [] => none
  | c :: cs => if c = sep then some cs else afterFirst? sep cs

/-- The text after the last separator; the whole text if there is none. -/
def afterLast (sep : Char) : List Char → List Char
  | [] => []
  | c :: cs => if sep ∈ cs then afterLast sep cs else if c = sep then cs else c :: cs

/-- Every text has a field, if only an empty one. -/
theorem fields_ne_nil (sep : Char) (cs : List Char) : fields sep cs ≠ [] := by
  fun_cases fields sep cs <;> simp_all

/-- Joining the pieces with the separator gives the text back. -/
theorem intercalate_fields (sep : Char) (cs : List Char) :
    [sep].intercalate (fields sep cs) = cs := by
  induction cs with
  | nil => simp [fields]
  | cons c cs ih =>
    rw [fields]
    split
    · rename_i h
      subst h
      cases hf : fields c cs with
      | nil => exact absurd hf (fields_ne_nil c cs)
      | cons piece rest => rw [hf] at ih; simp [List.intercalate_cons_cons, ih]
    · split
      · rename_i hf; exact absurd hf (fields_ne_nil sep cs)
      · rename_i piece rest hf
        rw [hf] at ih
        cases rest with
        | nil => simpa using ih
        | cons next rest =>
          rw [List.intercalate_cons_cons] at ih ⊢
          simp [← ih]

/-- Nothing follows a separator that ends the text. -/
theorem not_mem_afterLast (sep : Char) (cs : List Char) : sep ∉ afterLast sep cs := by
  induction cs with
  | nil => simp [afterLast]
  | cons c cs ih =>
    rw [afterLast]
    split
    · exact ih
    · split
      · assumption
      · rename_i h hc
        simp [h, Ne.symm hc]

end BuildGraph.Text
