import BuildGraph.Toml.Lexeme

/-!
# Quoted texts

A text stands between quotation marks, where a backslash starts an escape, or between apostrophes,
where it does not. Three marks open a text that may run over several lines; a line end right after
them is dropped, each other one counts as a line feed, and up to two marks may stand before the three
closing ones.
-/

namespace BuildGraph.Toml

/-- The value of a hexadecimal digit. -/
def hexDigit? (c : Char) : Option Nat :=
  if '0' ≤ c ∧ c ≤ '9' then some (c.toNat - 48)
  else if 'a' ≤ c ∧ c ≤ 'f' then some (c.toNat - 87)
  else if 'A' ≤ c ∧ c ≤ 'F' then some (c.toNat - 55)
  else none

/-- The character whose code hexadecimal digits write. -/
def character? (digits : List Char) : Option Char := do
  let code ← digits.foldlM (fun acc c => (hexDigit? c).map (16 * acc + ·)) 0
  if code.isValidChar then some (Char.ofNat code) else none

/-- The character that a backslash followed by one letter stands for. -/
def letterEscape? (c : Char) : Option Char :=
  match c with
  | 'b' => some '\x08'
  | 'f' => some '\x0c'
  | 'n' => some '\n'
  | 'r' => some '\r'
  | 't' => some '\t'
  | '\\' => some '\\'
  | '"' => some '"'
  | _ => none

/-- Whether a character may stand for itself in a quoted text; marks and backslashes are told apart
before. -/
def isTextChar (c : Char) : Bool := c = '\t' || (0x20 ≤ c.toNat && c.toNat != 0x7F)

/-- Where a reader is in a text with escapes. -/
inductive QuoteState where
  /-- In a text of one line. -/
  | line
  /-- In a text of several lines. -/
  | block
  /-- In a text of several lines, behind a backslash that ended a line. -/
  | gap
deriving DecidableEq

/-- Whether only blanks stand before the end of the line. -/
def endsLine (cs : List Char) : Bool := (newline? (skipSpaces cs)).isSome

/-- Read a text with escapes up to and with its closing marks. -/
def escapedText : QuoteState → List Char → Option (List Char × List Char)
  | _, [] => none
  | .gap, '\r' :: '\n' :: cs => escapedText .gap cs
  | .block, '\r' :: '\n' :: cs => (escapedText .block cs).map fun (t, r) => ('\n' :: t, r)
  | .line, '"' :: cs => some ([], cs)
  | _, '"' :: '"' :: '"' :: '"' :: '"' :: cs => some (['"', '"'], cs)
  | _, '"' :: '"' :: '"' :: '"' :: cs => some (['"'], cs)
  | _, '"' :: '"' :: '"' :: cs => some ([], cs)
  | state, '\\' :: 'u' :: a :: b :: c :: d :: cs => do
    let x ← character? [a, b, c, d]
    (escapedText (if state = .line then .line else .block) cs).map fun (t, r) => (x :: t, r)
  | state, '\\' :: 'U' :: a :: b :: c :: d :: e :: f :: g :: h :: cs => do
    let x ← character? [a, b, c, d, e, f, g, h]
    (escapedText (if state = .line then .line else .block) cs).map fun (t, r) => (x :: t, r)
  | state, '\\' :: e :: cs =>
    match letterEscape? e with
    | some x => (escapedText (if state = .line then .line else .block) cs).map fun (t, r) => (x :: t, r)
    | none => if state ≠ .line ∧ endsLine (e :: cs) then escapedText .gap (e :: cs) else none
  | state, c :: cs =>
    if state = .gap ∧ (isSpace c ∨ c = '\n') then escapedText .gap cs
    else if state ≠ .line ∧ c = '\n' then (escapedText .block cs).map fun (t, r) => (c :: t, r)
    else if c ≠ '\\' ∧ isTextChar c then
      (escapedText (if state = .line then .line else .block) cs).map fun (t, r) => (c :: t, r)
    else none

/-- Read a text without escapes up to its closing apostrophe. -/
def literalLine : List Char → Option (List Char × List Char)
  | [] => none
  | c :: cs =>
    if c = '\'' then some ([], cs)
    else if isTextChar c then (literalLine cs).map fun (t, r) => (c :: t, r)
    else none

/-- Read a text of several lines without escapes up to its closing apostrophes. -/
def literalBlock : List Char → Option (List Char × List Char)
  | [] => none
  | '\r' :: '\n' :: cs => (literalBlock cs).map fun (t, r) => ('\n' :: t, r)
  | '\'' :: '\'' :: '\'' :: '\'' :: '\'' :: cs => some (['\'', '\''], cs)
  | '\'' :: '\'' :: '\'' :: '\'' :: cs => some (['\''], cs)
  | '\'' :: '\'' :: '\'' :: cs => some ([], cs)
  | c :: cs =>
    if c = '\n' ∨ isTextChar c then (literalBlock cs).map fun (t, r) => (c :: t, r) else none

/-- The text after a line end, or all of it. -/
def skipNewline (cs : List Char) : List Char := (newline? cs).getD cs

/-- Read a quoted text of one line. -/
def quotedLine : Reader String
  | '"' :: cs => (escapedText .line cs).map fun (t, r) => (.ofList t, r)
  | '\'' :: cs => (literalLine cs).map fun (t, r) => (.ofList t, r)
  | _ => none

/-- Read any quoted text. -/
def quoted : Reader String
  | '"' :: '"' :: '"' :: cs => (escapedText .block (skipNewline cs)).map fun (t, r) => (.ofList t, r)
  | '\'' :: '\'' :: '\'' :: cs => (literalBlock (skipNewline cs)).map fun (t, r) => (.ofList t, r)
  | cs => quotedLine cs

end BuildGraph.Toml
