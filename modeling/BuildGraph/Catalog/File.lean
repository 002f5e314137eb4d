import BuildGraph.Catalog
import BuildGraph.Files
import BuildGraph.Toml

/-!
# The catalog file

A catalog is written as the tables `versions` and `libraries`; other tables do not matter. A version
is a text, a table with the text `ref`, or else a table of bounds; a library is a text or a table.
-/

namespace BuildGraph

open Document (fields? field text? optional? map? Surplus)

/-- Read a version. -/
def VersionSpec.decode : Document → Option VersionSpec
  | .text version => some (.literal version)
  | d => do
    let entries ← d.entries?
    match (entries.lookup "ref").bind text? with
    | some key => return .reference key
    | none =>
      return .bounds
        (← field none (optional? text?) (entries.lookup "strictly"))
        (← field none (optional? text?) (entries.lookup "require"))
        (← field none (optional? text?) (entries.lookup "prefer"))

/-- Read a library. -/
def LibrarySpec.decode : Document → Option LibrarySpec
  | .text text => some (.shorthand text)
  | d => do
    let entries ← d.entries?
    return .table
      (← field none (optional? text?) (entries.lookup "module"))
      (← field none (optional? text?) (entries.lookup "group"))
      (← field none (optional? text?) (entries.lookup "name"))
      (← field none (optional? VersionSpec.decode) (entries.lookup "version"))

namespace Catalog

/-- Read a catalog. -/
def decode (surplus : Surplus) (d : Document) : Option Catalog := do
  match ← fields? surplus ["versions", "libraries"] d with
  | [versions, libraries] =>
    return {
      versions := ← field .empty (map? VersionSpec.decode) versions
      libraries := ← field .empty (map? LibrarySpec.decode) libraries }
  | _ => none

/-- Why a catalog file gives no catalog. -/
inductive FileFault where
  | read (path : String) (why : AccessFailure)
  | parse (path : String) (why : Toml.Fault)
deriving DecidableEq, Repr

/-- The fault in words. -/
def FileFault.message : FileFault → String
  | .read path why => "cannot read " ++ path ++ ": " ++ why.message
  | .parse path why => "invalid version catalog at " ++ path ++ ": " ++ why.message

/-- The catalog that a text in the format of catalog files declares. -/
def ofText (content : String) : Except Toml.Fault Catalog :=
  match Toml.parse content with
  | .error fault => .error fault
  | .ok d =>
    match decode .ignored d with
    | none => .error .shape
    | some catalog => .ok catalog

/-- Read the catalog file at `path`. -/
def load (files : Files) (path : String) : Except FileFault Catalog :=
  match files.readText path with
  | .error why => .error (.read path why)
  | .ok content =>
    match ofText content with
    | .error why => .error (.parse path why)
    | .ok catalog => .ok catalog

end Catalog

end BuildGraph
