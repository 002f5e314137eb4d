import BuildGraph.Files
import BuildGraph.SortedMap
import BuildGraph.Text.Blank
import BuildGraph.Text.Lines

/-!
# Property files

A property file lists keys with values, one pair on each logical line. A line whose text ends in an
odd number of backslashes goes on in the next one; blanks at the start of a physical line do not
count, and a line that goes on nothing and is blank or starts with `#` or `!` is dropped. Key and
value may hold escapes, and a pair replaces an earlier one with the same key.
-/

namespace BuildGraph.Properties

open Text

/-- An escape `\u` that four hexadecimal digits of a character do not follow. -/
structure EscapeFault where
  /-- The first physical line of the logical line, counted from one. -/
  line : Nat
  /-- Up to four characters that stand after the `u`. -/
  digits : String
deriving DecidableEq, Repr

/-- The fault in words. -/
def EscapeFault.message (f : EscapeFault) : String :=
  "invalid properties syntax on line " ++ toString f.line ++ ": malformed \\u escape \"\\u"
    ++ f.digits ++ "\""

/-- A text that may have been written on several lines. -/
structure LogicalLine where
  /-- The number of its first physical line, counted from one. -/
  line : Nat
  text : List Char
deriving DecidableEq, Repr

/-- Whether a line without its leading blanks is dropped. -/
def isDropped : List Char → Bool
  | [] => true
  | c :: _ => c = '#' || c = '!'

/-- The number of backslashes at the end of a text. -/
def trailingBackslashes (cs : List Char) : Nat := (cs.reverse.takeWhile (· = '\\')).length

/-- Whether a line goes on in the next one. -/
def continues (cs : List Char) : Bool := trailingBackslashes cs % 2 = 1

/-- The text of a line without its continuation mark. -/
def withoutMark (cs : List Char) : List Char := if continues cs then cs.dropLast else cs

/-- Backslashes at the end are counted from the last character on; any other character there ends the
count. -/
theorem trailingBackslashes_concat (cs : List Char) (c : Char) :
    trailingBackslashes (cs ++ [c]) = if c = '\\' then trailingBackslashes cs + 1 else 0 := by
  unfold trailingBackslashes
  rw [List.reverse_concat, List.takeWhile_cons]
  by_cases h : c = '\\' <;> simp [h]

/-- An even number of backslashes in front makes no difference to whether the number is even. -/
theorem trailingBackslashes_append_mod {xs : List Char} (h : trailingBackslashes xs % 2 = 0)
    (ys : List Char) : trailingBackslashes (xs ++ ys) % 2 = trailingBackslashes ys % 2 := by
  unfold trailingBackslashes at h ⊢
  rw [List.reverse_append, List.takeWhile_append]
  split
  · rename_i hall
    rw [List.length_append, Nat.add_mod, h, Nat.add_zero, Nat.mod_mod, hall]
  · rfl

/-- Only a backslash at its end makes a line go on. -/
theorem continues_concat_of_ne {c : Char} (h : c ≠ '\\') (cs : List Char) :
    continues (cs ++ [c]) = false := by
  simp [continues, trailingBackslashes_concat, h]

/-- Two backslashes more make no difference. -/
theorem continues_concat_concat (cs : List Char) :
    continues (cs ++ ['\\'] ++ ['\\']) = continues cs := by
  rw [continues, continues, trailingBackslashes_concat, trailingBackslashes_concat, if_pos rfl,
    if_pos rfl, Nat.add_assoc, Nat.add_mod_right]

/-- Join physical lines, the first of them numbered `n`, after the unfinished line `pending`. A line
that is unfinished at the end counts. -/
def logicalLines : Nat → Option LogicalLine → List (List Char) → List LogicalLine
  | _, none, [] => []
  | _, some pending, [] => [pending]
  | n, pending, physical :: rest =>
    let body := trimStart physical
    if pending.isNone && isDropped body then logicalLines (n + 1) none rest
    else
      let start := pending.getD ⟨n, []⟩
      let joined := { start with text := start.text ++ withoutMark body }
      if continues body then logicalLines (n + 1) (some joined) rest
      else joined :: logicalLines (n + 1) none rest

/-- Whether a character ends a key. -/
def isSeparator (c : Char) : Bool := c = '=' || c = ':' || c = ' ' || c = '\t' || c = '\x0c'

/-- Whether a character is skipped around the sign between key and value. -/
def isGap (c : Char) : Bool := c = ' ' || c = '\t' || c = '\x0c'

/-- Cut a logical line before its first separator that no backslash escapes. -/
def cutKey : List Char → List Char × List Char
  | [] => ([], [])
  | '\\' :: c :: cs =>
    let (key, rest) := cutKey cs
    ('\\' :: c :: key, rest)
  | c :: cs =>
    if isSeparator c then ([], c :: cs)
    else
      let (key, rest) := cutKey cs
      (c :: key, rest)

/-- A backslash takes the next character into the key, be it a separator. -/
theorem cutKey_escaped (c : Char) (cs : List Char) :
    cutKey ('\\' :: c :: cs) = ('\\' :: c :: (cutKey cs).1, (cutKey cs).2) := by
  rw [cutKey]

/-- The first separator that no backslash guards ends the key. -/
theorem cutKey_separator {c : Char} (h : isSeparator c) (cs : List Char) :
    cutKey (c :: cs) = ([], c :: cs) := by
  rw [cutKey, if_pos h]
  rintro d ds rfl
  cases h

/-- Anything else goes into the key as it is. -/
theorem cutKey_plain {c : Char} (hb : c ≠ '\\') (hs : isSeparator c = false) (cs : List Char) :
    cutKey (c :: cs) = (c :: (cutKey cs).1, (cutKey cs).2) := by
  rw [cutKey, if_neg (by simp [hs])]
  rintro d ds rfl
  exact absurd rfl hb

/-- The text after the gap and the one `=` or `:` between key and value. -/
def skipSign (cs : List Char) : List Char :=
  match cs.dropWhile isGap with
  | '=' :: rest => rest.dropWhile isGap
  | ':' :: rest => rest.dropWhile isGap
  | rest => rest

/-- The value of a hexadecimal digit. -/
def hexDigit? (c : Char) : Option Nat :=
  if '0' ≤ c ∧ c ≤ '9' then some (c.toNat - 48)
  else if 'a' ≤ c ∧ c ≤ 'f' then some (c.toNat - 87)
  else if 'A' ≤ c ∧ c ≤ 'F' then some (c.toNat - 55)
  else none

/-- The number written by hexadecimal digits, after those that gave `acc`. -/
def hexNumber? (acc : Nat) : List Char → Option Nat
  | [] => some acc
  | c :: cs => (hexDigit? c).bind fun d => hexNumber? (16 * acc + d) cs

/-- The character whose code four characters write. A plus sign may take the place of the first
digit. -/
def character? (a b c d : Char) : Option Char :=
  let code := if a = '+' then hexNumber? 0 [b, c, d] else hexNumber? 0 [a, b, c, d]
  code.bind fun n => if n.isValidChar then some (Char.ofNat n) else none

/-- The character that a backslash followed by `c` stands for. -/
def escaped (c : Char) : Char :=
  if c = 't' then '\t' else if c = 'n' then '\n' else if c = 'r' then '\r'
  else if c = 'f' then '\x0c' else c

/-- Replace the escapes of a raw key or value; a lone backslash at the end is dropped. The error holds
the characters that follow the malformed `\u`. -/
def unescape : List Char → Except (List Char) (List Char)
  | [] => .ok []
  | ['\\'] => .ok []
  | '\\' :: 'u' :: a :: b :: c :: d :: cs =>
    match character? a b c d with
    | some x => (unescape cs).map (x :: ·)
    | none => .error [a, b, c, d]
  | '\\' :: 'u' :: cs => .error cs
  | '\\' :: c :: cs => (unescape cs).map (escaped c :: ·)
  | c :: cs => (unescape cs).map (c :: ·)

/-- What is no backslash stands for itself. -/
theorem unescape_plain {c : Char} (h : c ≠ '\\') (cs : List Char) :
    unescape (c :: cs) = (unescape cs).map (c :: ·) := by
  rw [unescape] <;> simp_all

/-- A backslash before anything but `u` makes one character of two. -/
theorem unescape_escaped {c : Char} (h : c ≠ 'u') (cs : List Char) :
    unescape ('\\' :: c :: cs) = (unescape cs).map (escaped c :: ·) := by
  rw [unescape] <;> simp_all

/-- The pair that a logical line holds. A fault of the key comes before one of the value. -/
def pair (l : LogicalLine) : Except EscapeFault (String × String) :=
  let (key, rest) := cutKey l.text
  match unescape key with
  | .error digits => .error ⟨l.line, .ofList digits⟩
  | .ok key =>
    match unescape (skipSign rest) with
    | .error digits => .error ⟨l.line, .ofList digits⟩
    | .ok value => .ok (.ofList key, .ofList value)

/-- The pairs of logical lines, or the first fault. -/
def pairs : List LogicalLine → Except EscapeFault (List (String × String))
  | [] => .ok []
  | l :: ls =>
    match pair l with
    | .error fault => .error fault
    | .ok p => (pairs ls).map (p :: ·)

/-- Read the content of a property file. -/
def parse (content : String) : Except EscapeFault (SortedMap String String) :=
  (pairs (logicalLines 1 none (lines content.toList))).map .ofList

/-- Why a property file gives no pairs. -/
inductive Fault where
  | access (path : String) (why : AccessFailure)
  | escape (fault : EscapeFault)
deriving DecidableEq, Repr

/-- The fault in words. -/
def Fault.message : Fault → String
  | .access path why => "cannot access " ++ path ++ ": " ++ why.message
  | .escape fault => fault.message

/-- Read the property file at `path`. -/
def load (files : Files) (path : String) : Except Fault (SortedMap String String) :=
  match files.readText path with
  | .error why => .error (.access path why)
  | .ok content => (parse content).mapError .escape

end BuildGraph.Properties
