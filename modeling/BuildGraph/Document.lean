import BuildGraph.SortedMap

/-!
# Documents

The values of a configuration file or a listing: texts, truth values, numbers, date-times, arrays and
tables. Below the type stand the views through which settings are read from a document. A view gives
nothing for a document of another shape; the absence of a value, `null`, is a shape of its own and
fits only what is optional.
-/

namespace BuildGraph

/-- A structured value. -/
inductive Document where
  | null
  | boolean (value : Bool)
  | integer (value : Int)
  /-- A number with fraction or exponent, as it was written. -/
  | real (literal : String)
  | text (value : String)
  /-- A point in time, by its standard text. -/
  | dateTime (value : String)
  | array (items : List Document)
  /-- Named values; no name occurs twice. -/
  | table (entries : List (String × Document))
deriving Inhabited

namespace Document

/-- The truth value a document is. -/
def boolean? : Document → Option Bool
  | .boolean value => some value
  | _ => none

/-- The text a document is. -/
def text? : Document → Option String
  | .text value => some value
  | _ => none

/-- The elements of an array, each read by `f`. -/
def list? {α : Type} (f : Document → Option α) : Document → Option (List α)
  | .array items => items.mapM f
  | _ => none

/-- What `f` reads, or nothing from `null`. -/
def optional? {α : Type} (f : Document → Option α) : Document → Option (Option α)
  | .null => some none
  | d => (f d).map some

/-- The name under which a date-time holds its text where a table is expected. -/
def dateTimeEntry : String := "$__toml_private_datetime"

/-- The named values of a table. A date-time counts as a table of one text. -/
def entries? : Document → Option (List (String × Document))
  | .table entries => some entries
  | .dateTime value => some [(dateTimeEntry, .text value)]
  | _ => none

/-- A table with free names, each value read by `f`. -/
def map? {α : Type} (f : Document → Option α) (d : Document) : Option (SortedMap String α) := do
  let entries ← d.entries?
  let bindings ← entries.mapM fun e => (f e.2).map fun value => (e.1, value)
  return .ofList bindings

/-- What becomes of the elements of an array beyond the fields of the record it stands for. -/
inductive Surplus where
  | refused
  | ignored
deriving DecidableEq, Repr

/-- The values of a record's fields in the order of `names`, `none` where one is left out. A record is
written as a table, in which other names do not matter, or as an array of its first fields. -/
def fields? (surplus : Surplus) (names : List String) : Document → Option (List (Option Document))
  | .array items =>
    if surplus = .refused ∧ names.length < items.length then none
    else some ((List.range names.length).map (items[·]?))
  | d => d.entries?.map fun entries => names.map (entries.lookup ·)

/-- A field that may be left out. -/
def field {α : Type} (default : α) (f : Document → Option α) : Option Document → Option α
  | none => some default
  | some d => f d

end Document

end BuildGraph
