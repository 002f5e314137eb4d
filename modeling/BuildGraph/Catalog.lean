import BuildGraph.SortedMap
import BuildGraph.Text.Fields

/-!
# Version catalogs

A catalog declares versions and libraries under keys. A version may be given literally, by bounds, or
by reference to another one, which must not be a reference itself. Looking a key up gives a text that
is not empty.
-/

namespace BuildGraph

/-- How a version is declared. -/
inductive VersionSpec where
  | literal (version : String)
  /-- The version declared under another key. -/
  | reference (key : String)
  /-- Bounds on the version. -/
  | bounds (strictly require prefer : Option String)
deriving DecidableEq, Repr

/-- How a library is declared. -/
inductive LibrarySpec where
  /-- `group:artifact` or `group:artifact:version` in one text. -/
  | shorthand (text : String)
  | table (moduleName group name : Option String) (version : Option VersionSpec)
deriving DecidableEq, Repr

/-- The declared versions and libraries. -/
structure Catalog where
  versions : SortedMap String VersionSpec := .empty
  libraries : SortedMap String LibrarySpec := .empty
deriving DecidableEq

namespace Catalog

/-- Why a look-up gives no version. Each cause names the key that was looked up. -/
inductive LookupFault where
  | missingEntry (key : String)
  | emptyVersion (key : String)
  | unresolvedReference (key reference : String)
deriving DecidableEq, Repr

/-- The fault in words. -/
def LookupFault.message : LookupFault → String
  | .missingEntry key => "no entry '" ++ key ++ "' defined in the version catalog"
  | .emptyVersion key => "version for '" ++ key ++ "' is empty, but must not be empty"
  | .unresolvedReference key reference =>
    "version for '" ++ key ++ "' refers to undefined version '" ++ reference ++ "'"

/-- Which bound a look-up takes. -/
inductive Constraint where
  /-- The version something needs at least. -/
  | required
  /-- The version to choose if nothing else decides. -/
  | preferred
deriving DecidableEq, Repr

/-- The version of a declaration that refers to no other: the literal, or the bound that the
constraint takes first. -/
def VersionSpec.choose (constraint : Constraint) : VersionSpec → String
  | .literal version => version
  | .reference _ => ""
  | .bounds strictly require prefer =>
    let needed := strictly.or require
    match constraint with
    | .required => needed.getD ""
    | .preferred => (prefer.or needed).getD ""

/-- A version that is not empty. -/
def nonempty (key version : String) : Except LookupFault String :=
  if version.isEmpty then .error (.emptyVersion key) else .ok version

/-- The version that a declaration found under `key` stands for. -/
def resolve (c : Catalog) (key : String) (constraint : Constraint) :
    VersionSpec → Except LookupFault String
  | .reference name =>
    match c.versions.find? name with
    | none => .error (.unresolvedReference key name)
    | some (.reference _) => .error (.unresolvedReference key name)
    | some target => nonempty key (VersionSpec.choose constraint target)
  | spec => nonempty key (VersionSpec.choose constraint spec)

/-- The version part of a library in one text: what follows its second colon. -/
def versionPart (text : String) : String :=
  let rest := (Text.afterFirst? ':' text.toList).bind (Text.afterFirst? ':')
  String.ofList (rest.getD [])

/-- The preferred version of a library. -/
def libraryVersion (c : Catalog) (key : String) : Except LookupFault String :=
  match c.libraries.find? key with
  | none => .error (.missingEntry key)
  | some (.shorthand text) => nonempty key (versionPart text)
  | some (.table _ _ _ none) => .error (.emptyVersion key)
  | some (.table _ _ _ (some spec)) => c.resolve key .preferred spec

/-- The required version declared under `key`, else the version of the library of that name. -/
def version (c : Catalog) (key : String) : Except LookupFault String :=
  match c.versions.find? key with
  | some spec => c.resolve key .required spec
  | none => c.libraryVersion key

/-- Declare a literal version. -/
def withVersion (c : Catalog) (key version : String) : Catalog :=
  { c with versions := c.versions.insert key (.literal version) }

/-- Declare a library with a literal version. -/
def withLibrary (c : Catalog) (key moduleName version : String) : Catalog :=
  let library := .table (some moduleName) none none (some (.literal version))
  { c with libraries := c.libraries.insert key library }

/-- A version that is looked up is not empty. -/
theorem nonempty_eq_ok_iff {key version found : String} :
    nonempty key version = .ok found ↔ version = found ∧ found ≠ "" := by
  unfold nonempty
  split
  · rename_i h
    simp only [String.isEmpty_iff] at h
    simp [h]
  · rename_i h
    simp only [String.isEmpty_iff] at h
    constructor
    · intro e
      obtain rfl := Except.ok.inj e
      exact ⟨rfl, h⟩
    · rintro ⟨rfl, -⟩
      rfl

/-- A version is refused only for being empty, and the fault names the key it was looked up by. -/
theorem nonempty_eq_error_iff {key version : String} {fault : LookupFault} :
    nonempty key version = .error fault ↔ version = "" ∧ fault = .emptyVersion key := by
  unfold nonempty
  split
  · rename_i h
    simp [String.isEmpty_iff.mp h, eq_comm]
  · rename_i h
    simp only [String.isEmpty_iff] at h
    simp [h]

end Catalog

end BuildGraph
