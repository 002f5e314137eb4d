import BuildGraph.Toml.Moment
import BuildGraph.Toml.Number
import BuildGraph.Toml.Quoted
import BuildGraph.Toml.Tree

/-!
# Keys and values

A key is one or more names joined by dots. A value is a quoted text, a word, an array or a table in
braces; values may be nested up to a bound.
-/

namespace BuildGraph.Toml

/-- How many names a key may have, and how deep values may be nested, at most. -/
def maxDepth : Nat := 79

/-- Read one name of a key. -/
def keyName : Reader String
  | [] => none
  | c :: cs =>
    if c = '"' ∨ c = '\'' then quotedLine (c :: cs)
    else if isKeyChar c then
      some (.ofList ((c :: cs).takeWhile isKeyChar), (c :: cs).dropWhile isKeyChar)
    else none

/-- Read the names of a key, at most `budget` of them, and the blanks around them. -/
def keyNames : Nat → Reader (List String)
  | 0, _ => none
  | budget + 1, cs => do
    let (name, rest) ← keyName (skipSpaces cs)
    match skipSpaces rest with
    | '.' :: more => (keyNames budget more).map fun (names, rest) => (name :: names, rest)
    | rest => some ([name], rest)

/-- Read a key. -/
def key : Reader (List String) := keyNames maxDepth

/-- Read a word: a truth value, a number or a point in time. Between date and time may stand a blank
instead of the letter. -/
def word : Reader Document := fun cs =>
  let letters := cs.takeWhile isWordChar
  let rest := cs.dropWhile isWordChar
  let literal := String.ofList letters
  if literal = "true" then some (.boolean true, rest)
  else if literal = "false" then some (.boolean false, rest)
  else
    match integer? letters with
    | some n => some (.integer n, rest)
    | none =>
      if isReal letters then some (.real literal, rest)
      else
        match moment? letters, rest with
        | some (.day day), ' ' :: more =>
          match day.at? (more.takeWhile isWordChar) with
          | some m => some (.dateTime (.ofList m.text), more.dropWhile isWordChar)
          | none => some (.dateTime (.ofList day.text), rest)
        | some m, _ => some (.dateTime (.ofList m.text), rest)
        | none, _ => none

/-- Read the elements of an array and its closing bracket; an element may be followed by a comma.
Each element takes a character of the budget. -/
def arrayItems (item : Reader Document) : Nat → Reader (List Document)
  | 0, _ => none
  | budget + 1, cs => do
    match ← skipLayout false cs with
    | ']' :: rest => some ([], rest)
    | cs =>
      let (d, rest) ← item cs
      match ← skipLayout false rest with
      | ',' :: rest => (arrayItems item budget rest).map fun (ds, rest) => (d :: ds, rest)
      | ']' :: rest => some ([d], rest)
      | _ => none

/-- Read the entries of a table in braces and its closing brace, all on one line. Each entry takes a
character of the budget. -/
def inlineEntries (item : Reader Document) (entries : List (String × Node)) :
    Nat → Reader (List (String × Node))
  | 0, _ => none
  | budget + 1, cs => do
    let (names, rest) ← key cs
    let '=' :: rest := rest | none
    let (d, rest) ← item (skipSpaces rest)
    let name ← names.getLast?
    let entries ← addEntry names.dropLast name d .header entries
    match skipSpaces rest with
    | ',' :: rest => inlineEntries item entries budget rest
    | '\x7d' :: rest => some (entries, rest)
    | _ => none

/-- Read a table in braces after its opening brace. -/
def inlineTable (item : Reader Document) : Reader Document := fun cs =>
  match skipSpaces cs with
  | '\x7d' :: rest => some (.table [], rest)
  | cs => (inlineEntries item [] cs.length cs).map fun (entries, rest) =>
    (.table (finishEntries entries), rest)

/-- Read a value that may hold values `depth` levels deep. -/
def value : Nat → Reader Document
  | _, [] => none
  | depth, c :: cs =>
    if c = '"' ∨ c = '\'' then (quoted (c :: cs)).map fun (t, rest) => (.text t, rest)
    else if c = '[' then
      match depth with
      | 0 => none
      | depth + 1 =>
        (arrayItems (value depth) (cs.length + 1) cs).map fun (ds, rest) => (.array ds, rest)
    else if c = '\x7b' then
      match depth with
      | 0 => none
      | depth + 1 => inlineTable (value depth) cs
    else word (c :: cs)

end BuildGraph.Toml
