import BuildGraph.Document

/-!
# Documents as JSON text

A document is printed over several lines with two blanks for each level. Empty arrays and tables take
no line of their own. Numbers are printed as they were written.
-/

namespace BuildGraph.Document.Json

/-- A digit of base sixteen. -/
def hexDigit (n : Nat) : Char := Char.ofNat (if n < 10 then 48 + n else 87 + n)

/-- A character inside quotes. -/
def escape (c : Char) : List Char :=
  if c = '"' then ['\\', '"']
  else if c = '\\' then ['\\', '\\']
  else if c = '\x08' then ['\\', 'b']
  else if c = '\t' then ['\\', 't']
  else if c = '\n' then ['\\', 'n']
  else if c = '\x0c' then ['\\', 'f']
  else if c = '\r' then ['\\', 'r']
  else if c.toNat < 32 then ['\\', 'u', '0', '0', hexDigit (c.toNat / 16), hexDigit (c.toNat % 16)]
  else [c]

/-- A text in quotes. -/
def quote (s : String) : String := "\"" ++ String.ofList (s.toList.flatMap escape) ++ "\""

/-- The break before an item at a level. -/
def newline (level : Nat) : String := "\n" ++ String.ofList (List.replicate (2 * level) ' ')

mutual

/-- The text of a document at a level. -/
def renderAt (level : Nat) : Document → String
  | .null => "null"
  | .boolean value => if value then "true" else "false"
  | .integer value => toString value
  | .real literal => literal
  | .text value => quote value
  | .dateTime value => quote value
  | .array [] => "[]"
  | .array (d :: ds) =>
    "[" ++ newline (level + 1) ++ renderAt (level + 1) d ++ renderItems (level + 1) ds
      ++ newline level ++ "]"
  | .table [] => "\x7b\x7d"
  | .table ((name, d) :: es) =>
    "\x7b" ++ newline (level + 1) ++ quote name ++ ": " ++ renderAt (level + 1) d
      ++ renderEntries (level + 1) es ++ newline level ++ "\x7d"

/-- The text of the items after the first one. -/
def renderItems (level : Nat) : List Document → String
  | [] => ""
  | d :: ds => "," ++ newline level ++ renderAt level d ++ renderItems level ds

/-- The text of the entries after the first one. -/
def renderEntries (level : Nat) : List (String × Document) → String
  | [] => ""
  | (name, d) :: es =>
    "," ++ newline level ++ quote name ++ ": " ++ renderAt level d ++ renderEntries level es

end

/-- The text of a document. -/
def render (d : Document) : String := renderAt 0 d

end BuildGraph.Document.Json
