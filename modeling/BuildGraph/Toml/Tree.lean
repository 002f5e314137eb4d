import BuildGraph.Document

/-!
# Tables under construction

The entries of a document may be written in pieces: under headers, under keys with dots, element by
element. While it is read, each table remembers how it came about, which decides what may still be
added to it.
-/

namespace BuildGraph.Toml

/-- How a table came about. -/
structure TableOrigin where
  /-- No header names the table itself. -/
  implied : Bool
  /-- The table stands for the front of a key with dots. -/
  dotted : Bool
deriving DecidableEq

/-- The origin of a table that a header names. -/
def TableOrigin.header : TableOrigin := ⟨false, false⟩

/-- A value that may still grow. -/
inductive Node where
  /-- A finished value. -/
  | value (d : Document)
  | table (origin : TableOrigin) (entries : List (String × Node))
  /-- Tables listed one header at a time; the last one is open. -/
  | elements (earlier : List (List (String × Node))) (last : List (String × Node))

/-- Replace what stands under `key`, or add it, by what `f` makes of it. -/
def alter (key : String) (f : Option Node → Option Node) :
    List (String × Node) → Option (List (String × Node))
  | [] => (f none).map fun node => [(key, node)]
  | (k, node) :: rest =>
    if k = key then (f (some node)).map fun node => (k, node) :: rest
    else (alter key f rest).map ((k, node) :: ·)

/-- Act on the table at the end of a path. Tables on the way that are missing are implied; a path of
dots may not lead into a table that a header names. -/
def descend (dotted : Bool) (act : TableOrigin → List (String × Node) → Option (List (String × Node))) :
    List String → TableOrigin → List (String × Node) → Option (List (String × Node))
  | [], origin, entries => act origin entries
  | key :: path, _, entries =>
    alter key (fun
      | none => (descend dotted act path ⟨true, dotted⟩ []).map (.table ⟨true, dotted⟩)
      | some (.value _) => none
      | some (.table origin inner) =>
        if dotted && !origin.implied then none
        else (descend dotted act path origin inner).map (.table origin)
      | some (.elements earlier last) =>
        (descend dotted act path .header last).map (.elements earlier)) entries

/-- Open the table `key` by its header. -/
def openTable (key : String) (entries : List (String × Node)) : Option (List (String × Node)) :=
  alter key (fun
    | none => some (.table .header [])
    | some (.table origin inner) =>
      if origin.implied && !origin.dotted then some (.table .header inner) else none
    | some _ => none) entries

/-- Open another element of the list of tables `key`. -/
def openElement (key : String) (entries : List (String × Node)) : Option (List (String × Node)) :=
  alter key (fun
    | none => some (.elements [] [])
    | some (.elements earlier last) => some (.elements (earlier ++ [last]) [])
    | some _ => none) entries

/-- Add an entry whose key has the parts `path` before `key`. The key must be free, and a key with dots
needs a table that came about by dots. -/
def addEntry (path : List String) (key : String) (value : Document) (origin : TableOrigin)
    (entries : List (String × Node)) : Option (List (String × Node)) :=
  descend true (fun target inner =>
    if target.dotted = path.isEmpty then none
    else
      alter key (fun
        | none => some (.value value)
        | some _ => none) inner) path origin entries

mutual

/-- The finished value of a node. -/
def Node.finish : Node → Document
  | .value d => d
  | .table _ entries => .table (finishEntries entries)
  | .elements earlier last => .array (finishElements earlier ++ [.table (finishEntries last)])

/-- The finished entries of a table. -/
def finishEntries : List (String × Node) → List (String × Document)
  | [] => []
  | (key, node) :: rest => (key, node.finish) :: finishEntries rest

/-- The finished tables of a list. -/
def finishElements : List (List (String × Node)) → List Document
  | [] => []
  | entries :: rest => .table (finishEntries entries) :: finishElements rest

end

end BuildGraph.Toml
