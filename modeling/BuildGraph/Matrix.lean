import BuildGraph.Catalog
import BuildGraph.Path
import BuildGraph.Settings
import BuildGraph.Text.Blank

/-!
# The version matrix

A module may be built for a cell of a matrix, an engine line against a runtime line. Its name ends in
the two values after the last dash, joined by an underscore; the first one may be left to a default.
-/

namespace BuildGraph

/-- A cell of the matrix. -/
structure MatrixCell where
  /-- The engine line. -/
  primary : String
  /-- The runtime line. -/
  secondary : String
deriving DecidableEq, Repr

/-- An axis of the matrix. -/
inductive MatrixAxis where
  /-- The engine, chosen by both values. -/
  | primary
  /-- The runtime, chosen by the secondary value. -/
  | secondary
deriving DecidableEq, Repr

/-- Why a cell or its versions cannot be found. -/
inductive MatrixFault where
  | malformedName (name : String)
  | missingEntry (key : String)
  | emptyVersion (key : String)
  | unknownPrimary (primary : String)
  | catalog (why : Catalog.LookupFault)
deriving DecidableEq, Repr

/-- The fault in words. -/
def MatrixFault.message : MatrixFault → String
  | .malformedName name =>
    "cannot derive matrix axes from \"" ++ name
      ++ "\": expected \"<primary>_<secondary>\" after the last '-'"
  | .missingEntry key => "no library '" ++ key ++ "' defined in the version catalog"
  | .emptyVersion key => "version for library '" ++ key ++ "' is empty, but must not be empty"
  | .unknownPrimary primary =>
    "no secondary axis values configured for primary axis " ++ primary
  | .catalog why => why.message

namespace MatrixCell

/-- The cell in one text. -/
def display (c : MatrixCell) : String := c.primary ++ "_" ++ c.secondary

/-- Whether a text starts with a decimal digit. -/
def startsWithDigit (cs : List Char) : Bool := cs.head?.any Char.isDigit

/-- The cell that a name ends in. The primary value is taken from the name only if it starts with a
digit. -/
def ofName (name defaultPrimary : String) : Except MatrixFault MatrixCell :=
  match Text.fields '_' (Text.afterLast '-' name.toList) with
  | [primary, c :: secondary] =>
    .ok {
      primary := if startsWithDigit primary then .ofList primary else defaultPrimary
      secondary := .ofList (c :: secondary) }
  | _ => .error (.malformedName name)

/-- The cell of a primary value and the first secondary value configured for it. -/
def withDefaultSecondary (primary : String) (settings : Settings.Matrix) :
    Except MatrixFault MatrixCell :=
  match settings.secondaryAxis.find? primary with
  | some (secondary :: _) => .ok ⟨primary, .ofList (Text.trim secondary.toList)⟩
  | _ => .error (.unknownPrimary primary)

/-- The directory below a build directory that keeps the cell's output apart. -/
def outputKey (c : MatrixCell) : String := c.secondary

/-- A build directory moved below the directory of the cell. -/
def relocate (c : MatrixCell) (buildDir : String) : String := Path.join buildDir c.outputKey

/-- A value without its dots. -/
def withoutDots (value : String) : String := String.ofList (value.toList.filter (· ≠ '.'))

/-- The catalog key of the library on an axis. -/
def catalogKey (c : MatrixCell) (axis : MatrixAxis) (settings : Settings.Matrix) : String :=
  match axis with
  | .primary =>
    settings.primaryLibrary ++ "-v" ++ withoutDots c.primary ++ "-v" ++ withoutDots c.secondary
  | .secondary => settings.secondaryLibrary ++ "-v" ++ withoutDots c.secondary

/-- The version of the library on an axis. -/
def version (c : MatrixCell) (axis : MatrixAxis) (catalog : Catalog) (settings : Settings.Matrix) :
    Except MatrixFault String :=
  (catalog.libraryVersion (c.catalogKey axis settings)).mapError fun
    | .missingEntry key => .missingEntry key
    | .emptyVersion key => .emptyVersion key
    | why => .catalog why

end MatrixCell

/-- A cell with the versions on both axes. -/
structure ResolvedCell where
  cell : MatrixCell
  primaryVersion : String
  secondaryVersion : String
deriving DecidableEq, Repr

/-- Look up the versions of a cell, on the primary axis first. -/
def MatrixCell.resolve (c : MatrixCell) (catalog : Catalog) (settings : Settings.Matrix) :
    Except MatrixFault ResolvedCell := do
  let primaryVersion ← c.version .primary catalog settings
  let secondaryVersion ← c.version .secondary catalog settings
  return ⟨c, primaryVersion, secondaryVersion⟩

/-- Look up the versions of the cell that a name ends in. -/
def ResolvedCell.ofName (name : String) (catalog : Catalog) (settings : Settings.Matrix) :
    Except MatrixFault ResolvedCell := do
  let cell ← MatrixCell.ofName name settings.defaultPrimary
  cell.resolve catalog settings

end BuildGraph
