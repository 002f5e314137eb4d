import Mathlib.Data.List.TakeWhile
import BuildGraph.Proofs.PathComponents
import BuildGraph.Proofs.ResolvedCells

/-!
# Cells that keep their output apart

The secondary value of a cell is the directory that its output goes to. A cell that a name ends in always has
one. The default cell of a primary value has none if the first value listed for it is blank, since blanks are
cut off only after the value has been chosen: such a cell stays in the directory that it should be moved out
of, and its keys in the catalog end where the value should stand.
-/

namespace BuildGraph

/-! ## Blank texts -/

namespace Text

/-- Whether a text has nothing but blank characters. -/
def IsBlankText (cs : List Char) : Prop := ∀ c ∈ cs, isBlank c

/-- Nothing is left in front exactly if all of a text is blank. -/
theorem trimStart_eq_nil_iff {cs : List Char} : trimStart cs = [] ↔ IsBlankText cs :=
  List.dropWhile_eq_nil_iff

/-- Nothing is left at the end exactly if all of a text is blank. -/
theorem trimEnd_eq_nil_iff {cs : List Char} : trimEnd cs = [] ↔ IsBlankText cs := by
  rw [trimEnd, List.reverse_eq_nil_iff, List.dropWhile_eq_nil_iff]
  simp only [List.mem_reverse, IsBlankText]

/-- What is left of a text at the first character that is not blank is not blank. -/
theorem isBlankText_trimStart_iff {cs : List Char} : IsBlankText (trimStart cs) ↔ IsBlankText cs := by
  constructor
  · intro h
    by_contra hcs
    have hne : trimStart cs ≠ [] := fun e => hcs (trimStart_eq_nil_iff.mp e)
    have hhead : isBlank ((trimStart cs).head hne) = false := List.head_dropWhile_not isBlank hne
    rw [h _ (List.head_mem hne)] at hhead
    cases hhead
  · intro h c hc
    exact h c ((List.dropWhile_sublist isBlank).subset hc)

/-- Trimming both ends leaves nothing exactly if all of a text is blank. -/
theorem trim_eq_nil_iff {cs : List Char} : trim cs = [] ↔ IsBlankText cs := by
  rw [trim, trimEnd_eq_nil_iff, isBlankText_trimStart_iff]

end Text

/-! ## Moving build directories -/

namespace Path

/-- To join nothing to a path leads nowhere else. -/
theorem components_join_empty (base : String) : components (join base "") = components base := by
  have hjoin : join base "" = opened base := by
    rw [join_eq (by decide), String.append_empty]
  have habsolute : isAbsolute (opened base) = isAbsolute base := by
    by_cases h : base = ""
    · rw [h, show opened "" = "" by decide]
    · exact isAbsolute_opened h
  rw [hjoin, components, components, habsolute, names_opened]

end Path

namespace MatrixCell

variable {settings : Settings.Matrix} {name defaultPrimary primary : String} {cell : MatrixCell}

/-- The ways to come by a cell. -/
inductive Arises (settings : Settings.Matrix) (cell : MatrixCell) : Prop
  | ofName {name defaultPrimary : String} (h : ofName name defaultPrimary = .ok cell)
  | ofPrimary {primary : String} (h : withDefaultSecondary primary settings = .ok cell)

/-- Whether the first secondary value listed for a primary one is blank. -/
def BlankDefault (settings : Settings.Matrix) (primary : String) : Prop :=
  ∃ value values, settings.secondaryAxis.find? primary = some (value :: values) ∧
    Text.IsBlankText value.toList

/-- A name spells a secondary value or no cell at all. -/
theorem secondary_ne_empty_of_ofName (h : ofName name defaultPrimary = .ok cell) :
    cell.secondary ≠ "" := by
  obtain ⟨written, hs⟩ := ofName_ok h
  exact hs.secondary_ne_empty

/-- A cell by default has no secondary value exactly if the first one listed is blank. -/
theorem secondary_eq_empty_iff (h : withDefaultSecondary primary settings = .ok cell) :
    cell.secondary = "" ↔ BlankDefault settings primary := by
  obtain ⟨value, values, hfind, rfl⟩ := withDefaultSecondary_eq_ok_iff.mp h
  have htrim : String.ofList (Text.trim value.toList) = "" ↔ Text.IsBlankText value.toList := by
    rw [← Text.trim_eq_nil_iff, String.ofList_eq_empty_iff]
  rw [htrim]
  constructor
  · intro hblank
    exact ⟨value, values, hfind, hblank⟩
  · rintro ⟨value', values', hfind', hblank⟩
    rw [hfind] at hfind'
    obtain ⟨rfl, -⟩ := List.cons.inj (Option.some.inj hfind')
    exact hblank

/-- A blank value in the list is taken as any other. -/
theorem exists_withDefaultSecondary (h : BlankDefault settings primary) :
    ∃ cell, withDefaultSecondary primary settings = .ok cell := by
  obtain ⟨value, values, hfind, _⟩ := h
  exact ⟨_, withDefaultSecondary_eq_ok_iff.mpr ⟨value, values, hfind, rfl⟩⟩

/-- A cell without a secondary value is not moved, and its keys end where the value should stand. -/
theorem of_secondary_eq_empty (h : cell.secondary = "") :
    (∀ dir, Path.components (cell.relocate dir) = Path.components dir) ∧
      cell.catalogKey .primary settings =
        settings.primaryLibrary ++ "-v" ++ withoutDots cell.primary ++ "-v" ∧
      cell.catalogKey .secondary settings = settings.secondaryLibrary ++ "-v" := by
  have hdots : withoutDots "" = "" := by decide
  refine ⟨fun dir => ?_, ?_, ?_⟩
  · rw [relocate, outputKey, h]
    exact Path.components_join_empty dir
  · rw [catalogKey, h, hdots, String.append_empty]
  · rw [catalogKey, h, hdots, String.append_empty]

/-- A cell that a name ends in has a directory for its output. The default cell of a primary value has one
exactly if the first value listed for it is not blank; otherwise the cell is not moved, and its keys are
computed from nothing. Every cell of a matrix has one exactly if no list of the matrix starts with a blank
value. -/
theorem outputKey_nonempty_exact (settings : Settings.Matrix) :
    (∀ name defaultPrimary cell, ofName name defaultPrimary = .ok cell → cell.outputKey ≠ "") ∧
    (∀ primary cell, withDefaultSecondary primary settings = .ok cell →
      (cell.outputKey ≠ "" ↔ ¬ BlankDefault settings primary) ∧
      (BlankDefault settings primary →
        (∀ dir, Path.components (cell.relocate dir) = Path.components dir) ∧
          cell.catalogKey .primary settings =
            settings.primaryLibrary ++ "-v" ++ withoutDots cell.primary ++ "-v" ∧
          cell.catalogKey .secondary settings = settings.secondaryLibrary ++ "-v")) ∧
    ((∀ cell, Arises settings cell → cell.outputKey ≠ "") ↔
      ∀ primary, ¬ BlankDefault settings primary) := by
  refine ⟨fun _ _ _ => secondary_ne_empty_of_ofName, fun primary cell h => ⟨?_, ?_⟩, ?_, ?_⟩
  · exact not_congr (secondary_eq_empty_iff h)
  · intro hblank
    exact of_secondary_eq_empty ((secondary_eq_empty_iff h).mpr hblank)
  · intro hall primary hblank
    obtain ⟨cell, h⟩ := exists_withDefaultSecondary hblank
    exact hall cell (.ofPrimary h) ((secondary_eq_empty_iff h).mpr hblank)
  · intro hnone cell harises
    cases harises with
    | ofName h => exact secondary_ne_empty_of_ofName h
    | ofPrimary h => exact fun he => hnone _ ((secondary_eq_empty_iff h).mp he)

/-- Blanks around a value do no harm. -/
theorem axisSample_keeps_apart :
    withDefaultSecondary "3.3" ResolvedCell.axisSample = .ok ⟨"3.3", "2.12"⟩ ∧
      ¬ BlankDefault ResolvedCell.axisSample "3.3" := by
  have hcell : withDefaultSecondary "3.3" ResolvedCell.axisSample = .ok ⟨"3.3", "2.12"⟩ := by decide
  obtain ⟨_, hdefault, _⟩ := outputKey_nonempty_exact ResolvedCell.axisSample
  exact ⟨hcell, (hdefault "3.3" _ hcell).1.mp (by decide)⟩

/-- A matrix that lists a space for an engine line. -/
def blankSample : Settings.Matrix where
  secondaryAxis := .ofList [("3.3", [" "])]

/-- The default cell of the line has no directory: its output goes to the build directory itself. -/
theorem blankSample_joins_nothing :
    withDefaultSecondary "3.3" blankSample = .ok ⟨"3.3", ""⟩ ∧
      (MatrixCell.mk "3.3" "").relocate "build" = "build/" ∧
      (MatrixCell.mk "3.3" "").catalogKey .primary blankSample = "spark-sql-v33-v" ∧
      (MatrixCell.mk "3.3" "").catalogKey .secondary blankSample = "scala-library-v" := by
  decide

end MatrixCell

end BuildGraph
