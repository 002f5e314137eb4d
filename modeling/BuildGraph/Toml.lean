import BuildGraph.Toml.Value

/-!
# Configuration texts

A text in the TOML format is a sequence of statements: headers that open a table, headers that open an
element of a list of tables, and entries of the table opened last. Reading it gives a table or the line
of the first statement that cannot stand where it does.
-/

namespace BuildGraph.Toml

/-- A statement of a text. -/
inductive Statement where
  | table (names : List String)
  | element (names : List String)
  | entry (names : List String) (value : Document)

/-- Read a header between brackets, up to the end of its line. -/
def header : Reader Statement := fun cs => do
  match cs with
  | '[' :: '[' :: cs =>
    let (names, rest) ← key cs
    let ']' :: ']' :: rest := rest | none
    let rest ← lineEnd? rest
    return (.element names, rest)
  | '[' :: cs =>
    let (names, rest) ← key cs
    let ']' :: rest := rest | none
    let rest ← lineEnd? rest
    return (.table names, rest)
  | _ => none

/-- Read an entry up to the end of its line. -/
def entry : Reader Statement := fun cs => do
  let (names, rest) ← key cs
  let '=' :: rest := rest | none
  let (d, rest) ← value maxDepth (skipSpaces rest)
  let rest ← lineEnd? rest
  return (.entry names d, rest)

/-- Read one line, or the lines of one entry; blank lines and comments hold no statement. -/
def statement? (cs : List Char) : Option (Option Statement × List Char) :=
  match skipSpaces cs with
  | [] => some (none, [])
  | '[' :: rest => (header ('[' :: rest)).map fun (s, rest) => (some s, rest)
  | c :: rest =>
    if c = '#' ∨ c = '\n' ∨ c = '\r' then (lineEnd? (c :: rest)).map fun rest => (none, rest)
    else (entry (c :: rest)).map fun (s, rest) => (some s, rest)

/-- What has been read: the root table and the way to the table opened last. -/
structure Progress where
  root : List (String × Node) := []
  /-- The names of the last header. -/
  path : List String := []

/-- Take a statement into account. -/
def Progress.add (p : Progress) : Statement → Option Progress
  | .table names => do
    let name ← names.getLast?
    let root ← descend false (fun _ => openTable name) names.dropLast .header p.root
    return ⟨root, names⟩
  | .element names => do
    let name ← names.getLast?
    let root ← descend false (fun _ => openElement name) names.dropLast .header p.root
    return ⟨root, names⟩
  | .entry names d => do
    let name ← names.getLast?
    let root ← descend false (addEntry names.dropLast name d) p.path .header p.root
    return ⟨root, p.path⟩

/-- Why a text is no document. -/
inductive Fault where
  /-- The statement that starts on this line is malformed or in conflict with earlier ones. -/
  | malformed (line : Nat)
  /-- The values do not have the expected shapes. -/
  | shape
deriving DecidableEq, Repr

/-- The fault in words. -/
def Fault.message : Fault → String
  | .malformed line => "TOML parse error at line " ++ toString line
  | .shape => "TOML parse error at line 1 or below: unexpected kind of value"

/-- Read the statements of a text whose first line is numbered `line`. Each step takes a character of
the budget. -/
def readFrom : Nat → Nat → Progress → List Char → Except Fault Progress
  | _, _, p, [] => .ok p
  | 0, line, _, _ => .error (.malformed line)
  | budget + 1, line, p, c :: cs =>
    match statement? (c :: cs) with
    | none => .error (.malformed line)
    | some (s, rest) =>
      let next := line + ((c :: cs).count '\n' - rest.count '\n')
      match s with
      | none => readFrom budget next p rest
      | some s =>
        match p.add s with
        | none => .error (.malformed line)
        | some p => readFrom budget next p rest

/-- The text without a byte order mark at its start. -/
def skipMark : List Char → List Char
  | '\ufeff' :: cs => cs
  | cs => cs

/-- Read a document. -/
def parse (content : String) : Except Fault Document :=
  let cs := skipMark content.toList
  (readFrom (cs.length + 1) 1 {} cs).map fun p => .table (finishEntries p.root)

end BuildGraph.Toml
