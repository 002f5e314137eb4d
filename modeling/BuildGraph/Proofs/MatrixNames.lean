import BuildGraph.Matrix
import BuildGraph.Proofs.TextFields

/-!
# The names of matrix cells

A name ends in a cell of the matrix exactly if the text behind its last dash has one underscore and
something behind that. What a cell displays is read back as the cell, by itself and behind any dash, as long
as no separator stands in its values and its primary value starts with a digit or is the default.
-/

namespace BuildGraph

/-! ## Reading names -/

namespace MatrixCell

variable {name defaultPrimary primary again : String} {cell : MatrixCell} {written : List Char}
  {fault : MatrixFault}

/-- How a name spells a cell. Behind its last dash stand two halves around the only underscore. The second
one is the secondary value; the first one is the primary value if it starts with a digit, and anything else
leaves it to the default. -/
structure Spells (name defaultPrimary : String) (cell : MatrixCell) (written : List Char) : Prop where
  segment : Text.IsLastField '-' name.toList (written ++ '_' :: cell.secondary.toList)
  noUnderscoreBefore : '_' ∉ written
  noUnderscoreAfter : '_' ∉ cell.secondary.toList
  nonempty : cell.secondary.toList ≠ []
  primary : cell.primary = if startsWithDigit written then .ofList written else defaultPrimary

/-- A name that spells a cell has exactly two halves behind its last dash. -/
theorem Spells.fields (h : Spells name defaultPrimary cell written) :
    Text.fields '_' (Text.afterLast '-' name.toList) = [written, cell.secondary.toList] := by
  rw [Text.isLastField_iff.mp h.segment]
  exact Text.fields_eq_pair_iff.mpr ⟨rfl, h.noUnderscoreBefore, h.noUnderscoreAfter⟩

/-- Two halves around an underscore, with something in the second one, make a cell. -/
theorem ofName_of_fields {secondary : List Char} (hne : secondary ≠ [])
    (h : Text.fields '_' (Text.afterLast '-' name.toList) = [written, secondary]) :
    ofName name defaultPrimary = .ok {
      primary := if startsWithDigit written then .ofList written else defaultPrimary
      secondary := .ofList secondary } := by
  obtain ⟨c, rest, rfl⟩ := List.exists_cons_of_ne_nil hne
  rw [ofName, h]

/-- A cell that is read from a name is spelled by it. -/
theorem ofName_ok (h : ofName name defaultPrimary = .ok cell) :
    ∃ written, Spells name defaultPrimary cell written := by
  unfold ofName at h
  split at h
  · rename_i written first rest hfields
    obtain rfl := Except.ok.inj h
    obtain ⟨hsegment, hwritten, hsecondary⟩ := Text.fields_eq_pair_iff.mp hfields
    refine ⟨written, ?_, hwritten, ?_, ?_, rfl⟩ <;> rw [String.toList_ofList]
    · exact Text.isLastField_iff.mpr hsegment
    · exact hsecondary
    · exact List.cons_ne_nil first rest
  · cases h

/-- A name gives exactly the cell that it spells. -/
theorem ofName_eq_ok_iff :
    ofName name defaultPrimary = .ok cell ↔ ∃ written, Spells name defaultPrimary cell written := by
  constructor
  · exact ofName_ok
  · rintro ⟨written, h⟩
    rw [ofName_of_fields h.nonempty h.fields, ← h.primary, String.ofList_toList]

/-- A name that spells no cell is named in the fault in full. -/
theorem ofName_error (h : ofName name defaultPrimary = .error fault) : fault = .malformedName name := by
  unfold ofName at h
  split at h
  · cases h
  · exact (Except.error.inj h).symm

/-- A name that ends in a cell has one underscore behind its last dash, and something behind that. -/
theorem exists_ofName_iff :
    (∃ cell, ofName name defaultPrimary = .ok cell) ↔
      ∃ segment, Text.IsLastField '-' name.toList segment ∧
        segment.count '_' = 1 ∧ segment.getLast? ≠ some '_' := by
  simp only [Text.isLastField_iff, exists_eq_left', Text.count_eq_one_iff_fields]
  constructor
  · rintro ⟨cell, h⟩
    obtain ⟨written, hs⟩ := ofName_ok h
    exact ⟨written, cell.secondary.toList, hs.fields, hs.nonempty⟩
  · rintro ⟨written, secondary, hf, hne⟩
    exact ⟨_, ofName_of_fields hne hf⟩

/-! ## Writing names -/

/-- Whether a text can be read back from a name. -/
structure IsValue (value : String) : Prop where
  noDash : '-' ∉ value.toList
  noUnderscore : '_' ∉ value.toList

/-- Whether a name is the text of a cell, by itself or behind a dash. -/
def Ends (cell : MatrixCell) (name : String) : Prop :=
  name = cell.display ∨ ∃ start, name = start ++ "-" ++ cell.display

/-- A cell is written as its two values with an underscore between them. -/
theorem toList_display (cell : MatrixCell) :
    cell.display.toList = cell.primary.toList ++ '_' :: cell.secondary.toList := by
  simp [display]

/-- The text of a cell of two values is all that counts in a name. -/
theorem Ends.isLastField (h : cell.Ends name) (hp : IsValue cell.primary) (hs : IsValue cell.secondary) :
    Text.IsLastField '-' name.toList (cell.primary.toList ++ '_' :: cell.secondary.toList) := by
  refine ⟨?_, ?_⟩
  · simp only [List.mem_append, List.mem_cons, not_or]
    exact ⟨hp.noDash, by decide, hs.noDash⟩
  · rcases h with rfl | ⟨start, rfl⟩
    · exact Or.inl (toList_display cell)
    · refine Or.inr ⟨start.toList, ?_⟩
      rw [← toList_display]
      simp

/-- A cell of two values is read back from every name that ends in its text, if its primary value is one that
names can show or the default. -/
theorem ofName_of_ends (h : cell.Ends name) (hp : IsValue cell.primary) (hs : IsValue cell.secondary)
    (hne : cell.secondary ≠ "")
    (hprimary : startsWithDigit cell.primary.toList ∨ cell.primary = defaultPrimary) :
    ofName name defaultPrimary = .ok cell := by
  refine ofName_eq_ok_iff.mpr ⟨cell.primary.toList, h.isLastField hp hs, hp.noUnderscore,
    hs.noUnderscore, fun e => hne (String.toList_injective e), ?_⟩
  rw [String.ofList_toList]
  split
  · rfl
  · exact hprimary.resolve_left ‹_›

namespace Spells

variable (h : Spells name defaultPrimary cell written)

include h

/-- A cell that is read from a name has a secondary value. -/
theorem secondary_ne_empty : cell.secondary ≠ "" :=
  fun e => h.nonempty (congrArg String.toList e)

/-- The halves of a segment have no dash in them. -/
theorem noDash : '-' ∉ written ∧ '-' ∉ cell.secondary.toList := by
  have hsegment := h.segment.noSeparator
  simp only [List.mem_append, List.mem_cons, not_or] at hsegment
  exact ⟨hsegment.1, hsegment.2.2⟩

/-- The secondary value of a cell that is read from a name can be written into one again. -/
theorem isValue_secondary : IsValue cell.secondary := ⟨h.noDash.2, h.noUnderscoreAfter⟩

/-- The primary value is one that names can show, or the default. -/
theorem primary_shown_or_default :
    (startsWithDigit cell.primary.toList ∧ IsValue cell.primary) ∨ cell.primary = defaultPrimary := by
  have hprimary := h.primary
  split at hprimary
  · rename_i hdigit
    have htext : cell.primary.toList = written := by rw [hprimary, String.toList_ofList]
    refine Or.inl ⟨?_, ?_, ?_⟩ <;> rw [htext]
    · exact hdigit
    · exact h.noDash.1
    · exact h.noUnderscoreBefore
  · exact Or.inr hprimary

/-- The primary value of such a cell can be written into a name again if the default can. -/
theorem isValue_primary (hd : IsValue defaultPrimary) : IsValue cell.primary := by
  rcases h.primary_shown_or_default with ⟨_, hp⟩ | he
  · exact hp
  · rwa [he]

end Spells

/-- A name ends in a cell exactly if the text behind its last dash has one underscore and something behind
it; no other name has a cell. The secondary value is what stands behind the underscore, the primary value
what stands before it if that starts with a digit, and the default otherwise. If no separator stands in the
default, every name that ends in the text of the cell ends in the same cell. -/
theorem ofName_exact (name defaultPrimary : String) :
    ((∃ cell, ofName name defaultPrimary = .ok cell) ↔
      ∃ segment, Text.IsLastField '-' name.toList segment ∧
        segment.count '_' = 1 ∧ segment.getLast? ≠ some '_') ∧
    (∀ cell, ofName name defaultPrimary = .ok cell ↔
      ∃ written, Spells name defaultPrimary cell written) ∧
    (∀ fault, ofName name defaultPrimary = .error fault → fault = .malformedName name) ∧
    (IsValue defaultPrimary → ∀ cell, ofName name defaultPrimary = .ok cell →
      ∀ again, cell.Ends again → ofName again defaultPrimary = .ok cell) := by
  refine ⟨exists_ofName_iff, fun _ => ofName_eq_ok_iff, fun _ => ofName_error, ?_⟩
  intro hd cell h again hagain
  obtain ⟨written, hs⟩ := ofName_ok h
  have hprimary : startsWithDigit cell.primary.toList ∨ cell.primary = defaultPrimary :=
    hs.primary_shown_or_default.imp_left And.left
  exact ofName_of_ends hagain (hs.isValue_primary hd) hs.isValue_secondary hs.secondary_ne_empty hprimary

/-- A name without a primary value ends in the cell of the default one, and so does the text of that cell
behind a dash of its own. -/
theorem defaulted_name_read_back :
    ofName "nessie-spark_extensions-x3_2.13" "3.2" = .ok ⟨"3.2", "2.13"⟩ ∧
      ofName "iceberg_views--3.2_2.13" "3.2" = .ok ⟨"3.2", "2.13"⟩ := by
  have hcell : ofName "nessie-spark_extensions-x3_2.13" "3.2" = .ok ⟨"3.2", "2.13"⟩ := by decide
  obtain ⟨_, _, _, hback⟩ := ofName_exact "nessie-spark_extensions-x3_2.13" "3.2"
  have hdefault : IsValue "3.2" := ⟨by decide, by decide⟩
  exact ⟨hcell, hback hdefault _ hcell _ (Or.inr ⟨"iceberg_views-", by decide⟩)⟩

/-! ## Default cells -/

variable {settings : Settings.Matrix}

/-- The default cell of a primary value has that value and the first secondary value of its list, without
the blank characters around it. -/
theorem withDefaultSecondary_eq_ok_iff :
    withDefaultSecondary primary settings = .ok cell ↔
      ∃ value values, settings.secondaryAxis.find? primary = some (value :: values) ∧
        cell = ⟨primary, .ofList (Text.trim value.toList)⟩ := by
  unfold withDefaultSecondary
  split
  · rename_i value values hfind
    simp [hfind, eq_comm]
  · rename_i hfind
    constructor
    · intro h
      cases h
    · rintro ⟨value, values, hvalue, _⟩
      exact absurd hvalue (hfind value values)

/-- A cell by default keeps the primary value it was asked for. -/
theorem primary_of_withDefaultSecondary (h : withDefaultSecondary primary settings = .ok cell) :
    cell.primary = primary := by
  obtain ⟨value, values, _, rfl⟩ := withDefaultSecondary_eq_ok_iff.mp h
  rfl

/-- The default cell of a primary value is read back from the names that end in its text. -/
theorem ofName_of_withDefaultSecondary (hdigit : startsWithDigit primary.toList) (hp : IsValue primary)
    (h : withDefaultSecondary primary settings = .ok cell) (hne : cell.secondary ≠ "")
    (hs : IsValue cell.secondary) (hname : cell.Ends name) (defaultPrimary : String) :
    ofName name defaultPrimary = .ok cell := by
  have hprimary := primary_of_withDefaultSecondary h
  have hvalue : IsValue cell.primary := by rwa [hprimary]
  have hshown : startsWithDigit cell.primary.toList := by rwa [hprimary]
  exact ofName_of_ends hname hvalue hs hne (Or.inl hshown)

end MatrixCell

end BuildGraph
