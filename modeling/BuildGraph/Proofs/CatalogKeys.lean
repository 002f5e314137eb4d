import BuildGraph.Proofs.ResolvedCells

/-!
# The catalog keys of matrix cells

The key of a cell on the primary axis is put together from both values without their dots, with `-v` in
front of each; on the secondary axis it is made from the secondary value alone. Since no dash stands in the
values of a cell that a name ends in, both values can be told from the primary key, up to dots. A cell is
resolved by its two keys: no other library of the catalog has a say in it.
-/

namespace BuildGraph

/-! ## Changing one library -/

namespace Catalog

variable {c changed : Catalog} {key other : String}

/-- Whether a catalog is another one in which the library under a key may have been changed, added or
removed. -/
structure SameBut (key : String) (c changed : Catalog) : Prop where
  versions : changed.versions = c.versions
  libraries : ∀ other, other ≠ key → changed.libraries.find? other = c.libraries.find? other

/-- Declaring a library under a key changes the catalog at that key only. -/
theorem sameBut_withLibrary (c : Catalog) (key moduleName version : String) :
    c.SameBut key (c.withLibrary key moduleName version) where
  versions := rfl
  libraries _ h := SortedMap.find?_insert_of_ne c.libraries h _

theorem SameBut.symm (h : c.SameBut key changed) : changed.SameBut key c where
  versions := h.versions.symm
  libraries other ho := (h.libraries other ho).symm

/-- A version is resolved through versions alone, so a changed library does not matter to it. -/
theorem SameBut.resolve (h : c.SameBut key changed) (other : String) (constraint : Constraint)
    (spec : VersionSpec) : changed.resolve other constraint spec = c.resolve other constraint spec := by
  cases spec with
  | reference name => rw [Catalog.resolve, Catalog.resolve, h.versions]
  | literal version => rfl
  | bounds strictly require prefer => rfl

/-- The versions of the other libraries are the same. -/
theorem SameBut.libraryVersion (h : c.SameBut key changed) (ho : other ≠ key) :
    changed.libraryVersion other = c.libraryVersion other := by
  rw [Catalog.libraryVersion, Catalog.libraryVersion, h.libraries other ho]
  split
  · rfl
  · rfl
  · rfl
  · exact h.resolve other .preferred _

end Catalog

namespace MatrixCell

variable {settings : Settings.Matrix} {catalog changed : Catalog} {cell other : MatrixCell}
  {name defaultPrimary value key : String} {axis : MatrixAxis}

/-! ## Keys -/

/-- Leaving out dots brings in no dash. -/
theorem noDash_withoutDots (h : '-' ∉ value.toList) : '-' ∉ (withoutDots value).toList := by
  rw [withoutDots, String.toList_ofList]
  exact fun hm => h (List.mem_filter.mp hm).1

/-- The key of the primary library is its name, and the two values behind `-v` each. -/
theorem toList_catalogKey_primary (cell : MatrixCell) (settings : Settings.Matrix) :
    (cell.catalogKey .primary settings).toList =
      (settings.primaryLibrary ++ "-v").toList ++ ((withoutDots cell.primary).toList ++
        '-' :: 'v' :: (withoutDots cell.secondary).toList) := by
  simp [catalogKey]

/-- The first dash behind the name of the library ends the primary value. -/
theorem catalogKey_primary_eq_iff (hp : '-' ∉ cell.primary.toList) (hs : '-' ∉ cell.secondary.toList) :
    cell.catalogKey .primary settings = other.catalogKey .primary settings ↔
      withoutDots cell.primary = withoutDots other.primary ∧
        withoutDots cell.secondary = withoutDots other.secondary := by
  have hsecondary : '-' ∉ 'v' :: (withoutDots cell.secondary).toList :=
    List.not_mem_cons_of_ne_of_not_mem (by decide) (noDash_withoutDots hs)
  rw [← String.toList_inj, toList_catalogKey_primary, toList_catalogKey_primary,
    List.append_cancel_left_eq, List.append_cons_inj_of_notMem (noDash_withoutDots hp) hsecondary]
  simp [String.toList_inj]

/-- The key of the secondary library tells the secondary value up to its dots. -/
theorem catalogKey_secondary_eq_iff :
    cell.catalogKey .secondary settings = other.catalogKey .secondary settings ↔
      withoutDots cell.secondary = withoutDots other.secondary :=
  String.append_right_inj _

/-! ## Cells that names end in -/

/-- The primary value of a name has no dash if the default has none. -/
theorem noDash_of_ofName (hd : '-' ∉ defaultPrimary.toList) (h : ofName name defaultPrimary = .ok cell) :
    '-' ∉ cell.primary.toList ∧ '-' ∉ cell.secondary.toList := by
  obtain ⟨written, hs⟩ := ofName_ok h
  refine ⟨?_, hs.noDash.2⟩
  rcases hs.primary_shown_or_default with ⟨_, hvalue⟩ | he
  · exact hvalue.noDash
  · rwa [he]

/-- A cell looks at no library but the one of its own key. -/
theorem version_of_sameBut (h : catalog.SameBut key changed) (hkey : key ≠ cell.catalogKey axis settings) :
    cell.version axis changed settings = cell.version axis catalog settings := by
  rw [version, version, h.libraryVersion hkey.symm]

/-- The keys of a cell that a name ends in tell its values from those of any other cell, up to dots: both
values on the primary axis, the secondary one on the secondary axis. What becomes of a library under any
other key makes no difference to the versions that the cell is resolved to, or to the fault. -/
theorem catalogKey_exact (settings : Settings.Matrix) (hd : '-' ∉ defaultPrimary.toList)
    (h : ofName name defaultPrimary = .ok cell) :
    (∀ other : MatrixCell,
      cell.catalogKey .primary settings = other.catalogKey .primary settings ↔
        withoutDots cell.primary = withoutDots other.primary ∧
          withoutDots cell.secondary = withoutDots other.secondary) ∧
    (∀ other : MatrixCell,
      cell.catalogKey .secondary settings = other.catalogKey .secondary settings ↔
        withoutDots cell.secondary = withoutDots other.secondary) ∧
    ∀ (catalog changed : Catalog) (key : String), catalog.SameBut key changed →
      key ≠ cell.catalogKey .primary settings → key ≠ cell.catalogKey .secondary settings →
      cell.resolve changed settings = cell.resolve catalog settings := by
  obtain ⟨hp, hs⟩ := noDash_of_ofName hd h
  refine ⟨fun _ => catalogKey_primary_eq_iff hp hs, fun _ => catalogKey_secondary_eq_iff, ?_⟩
  intro catalog changed key hsame hprimary hsecondary
  rw [resolve, resolve, version_of_sameBut hsame hprimary, version_of_sameBut hsame hsecondary]

/-- Two cells that differ in a dot share the library of the engine. A library of another cell may be taken
away: the one that lacks a version is the same. -/
theorem dottedCells_share_library :
    ofName "nessie-spark-3.3_2.12" "3.2" = .ok ⟨"3.3", "2.12"⟩ ∧
      (MatrixCell.mk "3.3" "2.12").catalogKey .primary ResolvedCell.axisSample =
        (MatrixCell.mk "33" "21.2").catalogKey .primary ResolvedCell.axisSample ∧
      (MatrixCell.mk "3.3" "2.12").catalogKey .primary ResolvedCell.axisSample ≠
        (MatrixCell.mk "3.31" "2.2").catalogKey .primary ResolvedCell.axisSample ∧
      (MatrixCell.mk "3.3" "2.12").resolve
          (ResolvedCell.axisCatalog.withLibrary "spark-sql-v331-v22" "org.apache.spark:spark-sql" "3.3.1")
          ResolvedCell.axisSample =
        .error (.emptyVersion "scala-library-v212") := by
  have hcell : ofName "nessie-spark-3.3_2.12" "3.2" = .ok ⟨"3.3", "2.12"⟩ := by decide
  have hfault : (MatrixCell.mk "3.3" "2.12").resolve ResolvedCell.axisCatalog ResolvedCell.axisSample =
      .error (.emptyVersion "scala-library-v212") := by decide
  obtain ⟨hprimary, _, hframe⟩ := catalogKey_exact ResolvedCell.axisSample (by decide) hcell
  refine ⟨hcell, (hprimary _).mpr (by decide), fun e => absurd ((hprimary _).mp e) (by decide), ?_⟩
  have hremoved := (Catalog.sameBut_withLibrary ResolvedCell.axisCatalog "spark-sql-v331-v22"
    "org.apache.spark:spark-sql" "3.3.1").symm
  exact (hframe _ _ _ hremoved (by decide) (by decide)).symm.trans hfault

end MatrixCell

end BuildGraph
