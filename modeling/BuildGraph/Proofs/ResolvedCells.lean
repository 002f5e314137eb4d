import BuildGraph.CommandLine.Run
import BuildGraph.Proofs.InlinedReferences
import BuildGraph.Proofs.MatrixNames
import BuildGraph.Proofs.Registration

/-!
# Cells with their versions

A cell is resolved to the versions that the catalog has for the library on each axis, and fails with the
first fault, which names the key that was computed for the axis. A name that ends in the default cell of a
primary value is resolved like that cell, so that the program gives one answer to both.
-/

namespace BuildGraph

/-! ## Faults and keys -/

/-- The key that a look-up names when it fails. -/
def Catalog.LookupFault.key : Catalog.LookupFault → String
  | .missingEntry key => key
  | .emptyVersion key => key
  | .unresolvedReference key _ => key

/-- The catalog key that a fault names, if it comes from the catalog. -/
def MatrixFault.key? : MatrixFault → Option String
  | .missingEntry key => some key
  | .emptyVersion key => some key
  | .catalog why => some why.key
  | .malformedName _ => none
  | .unknownPrimary _ => none

/-- A look-up of a library that fails names the key that was looked up. -/
theorem Catalog.key_of_libraryVersion {c : Catalog} {key : String} {why : LookupFault}
    (h : c.libraryVersion key = .error why) : why.key = key := by
  have hsurvives := c.survives_libraryVersion key
  rw [h] at hsurvives
  cases why with
  | missingEntry named => exact hsurvives.1
  | emptyVersion named => exact hsurvives.1
  | unresolvedReference named reference => exact hsurvives.1

namespace MatrixCell

variable {settings : Settings.Matrix} {catalog : Catalog} {cell : MatrixCell} {axis : MatrixAxis}
  {fault : MatrixFault} {r : ResolvedCell}

/-! ## Resolving -/

/-- A version that is not found is missed under the key of its axis. -/
theorem key?_of_version (h : cell.version axis catalog settings = .error fault) :
    fault.key? = some (cell.catalogKey axis settings) := by
  obtain ⟨why, hwhy, rfl⟩ := except_mapError_error h
  have hkey := Catalog.key_of_libraryVersion hwhy
  cases why <;> exact congrArg some hkey

/-- A cell is resolved exactly if both of its libraries have a version. -/
theorem resolve_eq_ok_iff :
    cell.resolve catalog settings = .ok r ↔
      r.cell = cell ∧ cell.version .primary catalog settings = .ok r.primaryVersion ∧
        cell.version .secondary catalog settings = .ok r.secondaryVersion := by
  constructor
  · intro h
    obtain ⟨primaryVersion, hp, h⟩ := except_bind_ok h
    obtain ⟨secondaryVersion, hs, h⟩ := except_bind_ok h
    obtain rfl := Except.ok.inj h
    exact ⟨rfl, hp, hs⟩
  · rintro ⟨rfl, hp, hs⟩
    rw [resolve, hp, hs]
    rfl

/-- The primary axis is looked at first. -/
theorem resolve_eq_error_iff :
    cell.resolve catalog settings = .error fault ↔
      cell.version .primary catalog settings = .error fault ∨
        (cell.version .primary catalog settings).isOk ∧
          cell.version .secondary catalog settings = .error fault := by
  rw [resolve]
  cases cell.version .primary catalog settings with
  | error why => simp [bind, Except.bind, Except.isOk, Except.toBool]
  | ok primaryVersion =>
    cases cell.version .secondary catalog settings with
    | error why => simp [bind, Except.bind, Except.isOk, Except.toBool]
    | ok secondaryVersion => simp [bind, Except.bind, pure, Except.pure]

end MatrixCell

/-! ## By name and by primary value -/

namespace ResolvedCell

open MatrixCell

variable {settings : Settings.Matrix} {catalog : Catalog} {primary name : String} {cell : MatrixCell}

/-- Once the name is read, its cell is resolved as any other. -/
theorem ofName_of_cell (h : MatrixCell.ofName name settings.defaultPrimary = .ok cell) (catalog : Catalog) :
    ofName name catalog settings = cell.resolve catalog settings := by
  rw [ofName, h]
  rfl

/-- A name that ends in the default cell of a primary value is resolved like that cell: to the same cell with
the versions of its two libraries, or with the same fault, which names the key of the axis it comes from. -/
theorem ofName_eq_resolve (hdigit : startsWithDigit primary.toList) (hp : IsValue primary)
    (h : withDefaultSecondary primary settings = .ok cell) (hne : cell.secondary ≠ "")
    (hs : IsValue cell.secondary) (hname : cell.Ends name) :
    ofName name catalog settings = cell.resolve catalog settings ∧
      (∀ r, ofName name catalog settings = .ok r ↔
        r.cell = cell ∧ cell.version .primary catalog settings = .ok r.primaryVersion ∧
          cell.version .secondary catalog settings = .ok r.secondaryVersion) ∧
      ∀ fault, ofName name catalog settings = .error fault →
        ∃ axis, cell.version axis catalog settings = .error fault ∧
          fault.key? = some (cell.catalogKey axis settings) := by
  have hread := ofName_of_withDefaultSecondary hdigit hp h hne hs hname settings.defaultPrimary
  have hsame := ofName_of_cell hread catalog
  rw [hsame]
  refine ⟨rfl, fun r => resolve_eq_ok_iff, fun fault hfault => ?_⟩
  rcases resolve_eq_error_iff.mp hfault with hprimary | ⟨_, hsecondary⟩
  · exact ⟨.primary, hprimary, key?_of_version hprimary⟩
  · exact ⟨.secondary, hsecondary, key?_of_version hsecondary⟩

/-- An engine line whose default is written with blanks around it, and a default that is no number. -/
def axisSample : Settings.Matrix where
  defaultPrimary := "latest"
  secondaryAxis := .ofList [("3.3", [" 2.12\t", "2.13"])]

/-- A catalog with a version for the engine, but an empty one for the runtime. -/
def axisCatalog : Catalog :=
  (Catalog.withLibrary {} "spark-sql-v33-v212" "org.apache.spark:spark-sql_2.12" "3.3.2").withLibrary
    "scala-library-v212" "org.scala-lang:scala-library" ""

/-- The value by default is written with blanks, and the name without, but both lead to the same key and
the same fault. -/
theorem axisSample_same_fault :
    withDefaultSecondary "3.3" axisSample = .ok ⟨"3.3", "2.12"⟩ ∧
      (MatrixCell.mk "3.3" "2.12").resolve axisCatalog axisSample =
        .error (.emptyVersion "scala-library-v212") ∧
      ofName "nessie-spark-extensions-3.3_2.12" axisCatalog axisSample =
        .error (.emptyVersion "scala-library-v212") := by
  have hcell : withDefaultSecondary "3.3" axisSample = .ok ⟨"3.3", "2.12"⟩ := by decide
  have hfault : (MatrixCell.mk "3.3" "2.12").resolve axisCatalog axisSample =
      .error (.emptyVersion "scala-library-v212") := by decide
  refine ⟨hcell, hfault, ?_⟩
  have hends : (MatrixCell.mk "3.3" "2.12").Ends "nessie-spark-extensions-3.3_2.12" :=
    Or.inr ⟨"nessie-spark-extensions", by decide⟩
  rw [← hfault]
  exact (ofName_eq_resolve (by decide) ⟨by decide, by decide⟩ hcell (by decide)
    ⟨by decide, by decide⟩ hends).1

end ResolvedCell

namespace CommandLine

open MatrixCell

variable {files : Files} {root primary name : String} {c : Context} {cell : MatrixCell}

/-- The program prints the same for a name that ends in the default cell of a primary value and for that
value. -/
theorem runCommand_matrix_eq (hc : loadContext files root false = .ok c)
    (hdigit : startsWithDigit primary.toList) (hp : IsValue primary)
    (h : withDefaultSecondary primary c.settings.matrix = .ok cell) (hne : cell.secondary ≠ "")
    (hs : IsValue cell.secondary) (hname : cell.Ends name) :
    runCommand files root (.matrix (some name) none) =
      runCommand files root (.matrix none (some primary)) := by
  have hread := ofName_of_withDefaultSecondary hdigit hp h hne hs hname c.settings.matrix.defaultPrimary
  have hcell : resolveCell c (some name) none = resolveCell c none (some primary) := by
    rw [resolveCell, resolveCell, ResolvedCell.ofName_of_cell hread, h]
    rfl
  simp only [runCommand, hc, bind, Except.bind, hcell]

end CommandLine

end BuildGraph
