import Mathlib.Data.List.Basic
import BuildGraph.Text.Fields

/-!
# The fields of a text

A text that is cut at a separator is cut in the same places if it is cut piece by piece. Two fields are the
halves around the only separator. What stands behind the first separator does not depend on what stands
before it, and the last field is what stands behind the last one.
-/

namespace BuildGraph.Text

variable {sep : Char} {cs ds segment first second : List Char}

/-! ## All fields -/

/-- A separator cuts a text in two. -/
theorem fields_append (sep : Char) (cs ds : List Char) :
    fields sep (cs ++ sep :: ds) = fields sep cs ++ fields sep ds := by
  induction cs with
  | nil => simp [fields]
  | cons c cs ih =>
    rw [List.cons_append, fields, fields, ih]
    split
    · rfl
    · cases hf : fields sep cs with
      | nil => exact absurd hf (fields_ne_nil sep cs)
      | cons piece rest => rfl

/-- A text without the separator is one field. -/
theorem fields_of_not_mem {cs : List Char} (h : sep ∉ cs) : fields sep cs = [cs] := by
  induction cs with
  | nil => rfl
  | cons c cs ih =>
    rw [List.mem_cons, not_or] at h
    rw [fields, if_neg (Ne.symm h.1), ih h.2]

/-- What stands before all separators belongs to the first field. -/
theorem fields_append_of_not_mem {front : List Char} (h : sep ∉ front) (cs : List Char) :
    ∃ first rest, fields sep cs = first :: rest ∧ fields sep (front ++ cs) = (front ++ first) :: rest := by
  induction front with
  | nil =>
    obtain ⟨first, rest, hf⟩ := List.exists_cons_of_ne_nil (fields_ne_nil sep cs)
    exact ⟨first, rest, hf, hf⟩
  | cons c front ih =>
    rw [List.mem_cons, not_or] at h
    obtain ⟨first, rest, hf, hfront⟩ := ih h.2
    refine ⟨first, rest, hf, ?_⟩
    rw [List.cons_append, fields, if_neg (Ne.symm h.1), hfront]
    rfl

/-- Pieces without separators are the fields of the text that they make. -/
theorem fields_intercalate {pieces : List (List Char)} (hne : pieces ≠ [])
    (h : ∀ piece ∈ pieces, sep ∉ piece) : fields sep ([sep].intercalate pieces) = pieces := by
  induction pieces with
  | nil => exact absurd rfl hne
  | cons piece pieces ih =>
    obtain ⟨hpiece, hpieces⟩ := List.forall_mem_cons.mp h
    cases pieces with
    | nil =>
      rw [List.intercalate_singleton]
      exact fields_of_not_mem hpiece
    | cons next pieces =>
      rw [List.intercalate_cons_cons, List.append_assoc, List.singleton_append, fields_append,
        fields_of_not_mem hpiece, ih (List.cons_ne_nil next pieces) hpieces]
      rfl

/-- Joined pieces have no characters but their own and separators. -/
theorem not_mem_intercalate {c : Char} {pieces : List (List Char)} (hc : c ≠ sep)
    (h : ∀ piece ∈ pieces, c ∉ piece) : c ∉ [sep].intercalate pieces := by
  induction pieces with
  | nil => simp
  | cons piece pieces ih =>
    obtain ⟨hpiece, hpieces⟩ := List.forall_mem_cons.mp h
    cases pieces with
    | nil => rwa [List.intercalate_singleton]
    | cons next pieces =>
      rw [List.intercalate_cons_cons]
      exact List.not_mem_append (List.not_mem_append hpiece (by simpa using hc)) (ih hpieces)

/-- No field has a separator in it. -/
theorem not_mem_of_mem_fields {piece : List Char} (h : piece ∈ fields sep cs) : sep ∉ piece := by
  induction cs generalizing piece with
  | nil =>
    rw [List.mem_singleton.mp h]
    exact List.not_mem_nil
  | cons c cs ih =>
    rw [fields] at h
    split at h
    · rcases List.mem_cons.mp h with rfl | h
      · exact List.not_mem_nil
      · exact ih h
    · rename_i hc
      split at h
      · rename_i hf
        exact absurd hf (fields_ne_nil sep cs)
      · rename_i piece' rest hf
        rw [hf] at ih
        rcases List.mem_cons.mp h with rfl | h
        · have hpiece : sep ∉ piece' := ih (List.mem_cons_self ..)
          exact List.not_mem_cons_of_ne_of_not_mem (Ne.symm hc) hpiece
        · exact ih (List.mem_cons_of_mem piece' h)

/-- Two fields are the halves around the only separator. -/
theorem fields_eq_pair_iff :
    fields sep cs = [first, second] ↔ cs = first ++ sep :: second ∧ sep ∉ first ∧ sep ∉ second := by
  constructor
  · intro h
    have hcs : cs = first ++ sep :: second := by
      have hjoin := intercalate_fields sep cs
      rw [h] at hjoin
      simpa using hjoin.symm
    have hpieces : ∀ piece ∈ [first, second], sep ∉ piece := by
      intro piece hp
      rw [← h] at hp
      exact not_mem_of_mem_fields hp
    exact ⟨hcs, hpieces first (by simp), hpieces second (by simp)⟩
  · rintro ⟨rfl, hfirst, hsecond⟩
    rw [fields_append, fields_of_not_mem hfirst, fields_of_not_mem hsecond]
    rfl

/-- One separator with something behind it cuts a text into two halves, of which the second one is not
empty. -/
theorem count_eq_one_iff_fields :
    cs.count sep = 1 ∧ cs.getLast? ≠ some sep ↔
      ∃ first second, fields sep cs = [first, second] ∧ second ≠ [] := by
  constructor
  · rintro ⟨hcount, hlast⟩
    have hm : sep ∈ cs := List.count_pos_iff.mp (by omega)
    obtain ⟨first, second, rfl, hfirst⟩ := List.eq_append_cons_of_mem hm
    have hsecond : second.count sep = 0 := by
      rw [List.count_append, List.count_cons_self, List.count_eq_zero_of_not_mem hfirst] at hcount
      omega
    refine ⟨first, second, fields_eq_pair_iff.mpr ⟨rfl, hfirst, List.count_eq_zero.mp hsecond⟩, ?_⟩
    rintro rfl
    exact hlast List.getLast?_concat
  · rintro ⟨first, second, hf, hne⟩
    obtain ⟨rfl, hfirst, hsecond⟩ := fields_eq_pair_iff.mp hf
    constructor
    · rw [List.count_append, List.count_cons_self, List.count_eq_zero_of_not_mem hfirst,
        List.count_eq_zero_of_not_mem hsecond]
    · intro hlast
      rw [List.getLast?_append_of_ne_nil first (List.cons_ne_nil sep second),
        List.getLast?_cons_of_ne_nil hne] at hlast
      exact hsecond (List.mem_of_getLast? hlast)

/-! ## What stands behind the first separator -/

/-- What stands before the first separator does not count. -/
theorem afterFirst?_append (h : sep ∉ cs) (ds : List Char) : afterFirst? sep (cs ++ sep :: ds) = some ds := by
  induction cs with
  | nil => rw [List.nil_append, afterFirst?, if_pos rfl]
  | cons c cs ih =>
    rw [List.mem_cons, not_or] at h
    rw [List.cons_append, afterFirst?, if_neg (Ne.symm h.1), ih h.2]

/-- Without a separator nothing stands behind it. -/
theorem afterFirst?_of_not_mem (h : sep ∉ cs) : afterFirst? sep cs = none := by
  induction cs with
  | nil => rfl
  | cons c cs ih =>
    rw [List.mem_cons, not_or] at h
    rw [afterFirst?, if_neg (Ne.symm h.1), ih h.2]

/-! ## The last field -/

/-- Without a separator all of a text counts as its last field. -/
theorem afterLast_of_not_mem (h : sep ∉ cs) : afterLast sep cs = cs := by
  cases cs with
  | nil => rfl
  | cons c cs =>
    rw [List.mem_cons, not_or] at h
    rw [afterLast, if_neg h.2, if_neg (Ne.symm h.1)]

/-- What stands before the last separator does not count. -/
theorem afterLast_append (h : sep ∉ ds) (cs : List Char) : afterLast sep (cs ++ sep :: ds) = ds := by
  induction cs with
  | nil => rw [List.nil_append, afterLast, if_neg h, if_pos rfl]
  | cons c cs ih =>
    have hm : sep ∈ cs ++ sep :: ds := List.mem_append_right cs (List.mem_cons_self ..)
    rw [List.cons_append, afterLast, if_pos hm, ih]

/-- A text is its last field, or ends in a separator and that field. -/
theorem eq_append_afterLast (sep : Char) (cs : List Char) :
    cs = afterLast sep cs ∨ ∃ start, cs = start ++ sep :: afterLast sep cs := by
  induction cs with
  | nil => exact Or.inl rfl
  | cons c cs ih =>
    rw [afterLast]
    split
    · rename_i hm
      rcases ih with he | ⟨start, he⟩
      · rw [he] at hm
        exact absurd hm (not_mem_afterLast sep cs)
      · exact Or.inr ⟨c :: start, congrArg (c :: ·) he⟩
    · split
      · rename_i hc
        exact Or.inr ⟨[], by rw [hc, List.nil_append]⟩
      · exact Or.inl rfl

/-- The last field has only characters of the text. -/
theorem mem_of_mem_afterLast {c : Char} (h : c ∈ afterLast sep cs) : c ∈ cs := by
  rcases eq_append_afterLast sep cs with he | ⟨start, he⟩
  · rwa [he]
  · rw [he]
    exact List.mem_append_right start (List.mem_cons_of_mem sep h)

/-- A separator in the back hides all that is in front. -/
theorem afterLast_append_of_mem (h : sep ∈ ds) (cs : List Char) :
    afterLast sep (cs ++ ds) = afterLast sep ds := by
  rcases eq_append_afterLast sep ds with he | ⟨start, he⟩
  · rw [he] at h
    exact absurd h (not_mem_afterLast sep ds)
  · have hcut : cs ++ ds = (cs ++ start) ++ sep :: afterLast sep ds := by
      rw [List.append_assoc, ← he]
    rw [hcut, afterLast_append (not_mem_afterLast sep ds)]

/-- A text without separators is added to the last field. -/
theorem afterLast_append_of_not_mem (h : sep ∉ ds) (cs : List Char) :
    afterLast sep (cs ++ ds) = afterLast sep cs ++ ds := by
  have hnone : sep ∉ afterLast sep cs ++ ds := List.not_mem_append (not_mem_afterLast sep cs) h
  rcases eq_append_afterLast sep cs with he | ⟨start, he⟩
  · rw [← he] at hnone ⊢
    exact afterLast_of_not_mem hnone
  · have hcut : cs ++ ds = start ++ sep :: (afterLast sep cs ++ ds) := by
      rw [← List.cons_append, ← List.append_assoc, ← he]
    rw [hcut, afterLast_append hnone]

/-- Whether a text is what stands behind the last separator of another one, or all of that one if it has no
separator. -/
structure IsLastField (sep : Char) (cs segment : List Char) : Prop where
  noSeparator : sep ∉ segment
  cut : cs = segment ∨ ∃ start, cs = start ++ sep :: segment

/-- The search from the end finds the last field. -/
theorem isLastField_iff : IsLastField sep cs segment ↔ afterLast sep cs = segment := by
  constructor
  · rintro ⟨hs, rfl | ⟨start, rfl⟩⟩
    · exact afterLast_of_not_mem hs
    · exact afterLast_append hs start
  · rintro rfl
    exact ⟨not_mem_afterLast sep cs, eq_append_afterLast sep cs⟩

end BuildGraph.Text
