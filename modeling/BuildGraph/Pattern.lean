/-!
# Path patterns

A pattern is a text in which `?` stands for any character, `*` for any text, `[…]` for one of the
listed characters and `[!…]` for one that is not listed. `**` as a whole path component, with the slash
behind it, stands for nothing, for whole components up to a slash, or for all that is left. A slash has
no other role.
-/

namespace BuildGraph

namespace Pattern

/-- A character or a run of characters in brackets. -/
inductive Listed where
  | char (c : Char)
  | range (first last : Char)
deriving DecidableEq, Repr

/-- A piece of a pattern. -/
inductive Token where
  | char (c : Char)
  | anyChar
  | anyText
  | anyComponents
  | oneOf (listed : List Listed)
  | noneOf (listed : List Listed)
deriving DecidableEq, Repr

/-- Why a text is no pattern. -/
inductive Fault where
  | starRun
  | component
  | brackets
deriving DecidableEq, Repr

/-- The fault in words. -/
def Fault.message : Fault → String
  | .starRun => "wildcards are either regular `*` or recursive `**`"
  | .component => "recursive wildcards must form a single path component"
  | .brackets => "invalid range pattern"

/-- What the text between brackets lists. A dash between two characters makes a run. -/
def listed : List Char → List Listed
  | first :: '-' :: last :: cs => .range first last :: listed cs
  | c :: cs => .char c :: listed cs
  | [] => []

/-- The text before and after the first closing bracket. -/
def cutBracket : List Char → Option (List Char × List Char)
  | [] => none
  | c :: cs => if c = ']' then some ([], cs) else (cutBracket cs).map fun (a, b) => (c :: a, b)

/-- Read what follows an opening bracket. A closing bracket right at the start of the list is listed. -/
def brackets : List Char → Except Fault (Token × List Char)
  | '!' :: c :: cs =>
    match cutBracket cs with
    | some (inner, rest) => .ok (.noneOf (listed (c :: inner)), rest)
    | none => .error .brackets
  | ['!'] => .error .brackets
  | c :: cs =>
    match cutBracket cs with
    | some (inner, rest) => .ok (.oneOf (listed (c :: inner)), rest)
    | none => .error .brackets
  | [] => .error .brackets

/-- Read stars, the first of which has been read; `opens` tells whether a component starts there. -/
def stars (opens : Bool) : List Char → Except Fault (Token × List Char)
  | '*' :: '*' :: _ => .error .starRun
  | '*' :: rest =>
    if opens then
      match rest with
      | [] => .ok (.anyComponents, [])
      | c :: rest => if c = '/' then .ok (.anyComponents, rest) else .error .component
    else .error .component
  | rest => .ok (.anyText, rest)

/-- Read a pattern; `before` is the character before it, `none` at the start. Each token takes a
character of the budget. -/
def readTokens : Nat → Option Char → List Char → Except Fault (List Token)
  | _, _, [] => .ok []
  | 0, _, _ => .ok []
  | budget + 1, before, c :: cs =>
    if c = '?' then (readTokens budget (some c) cs).map (.anyChar :: ·)
    else if c = '*' then
      match stars (before = none ∨ before = some '/') cs with
      | .error fault => .error fault
      | .ok (token, rest) =>
        let before := if token = .anyComponents then some '/' else some '*'
        (readTokens budget before rest).map (token :: ·)
    else if c = '[' then
      match brackets cs with
      | .error fault => .error fault
      | .ok (token, rest) => (readTokens budget (some ']') rest).map (token :: ·)
    else (readTokens budget (some c) cs).map (.char c :: ·)

/-- Whether a character is listed. -/
def Listed.holds (c : Char) : Listed → Bool
  | .char d => c = d
  | .range first last => first ≤ c && c ≤ last

/-- What comes of trying a pattern on a text. -/
inductive Outcome where
  | found
  /-- A character does not fit, or characters are left over. -/
  | mismatch
  /-- The text ended too early; it would for every later start as well. -/
  | exhausted
deriving DecidableEq, Repr

/-- The text itself and what is left of it after each further character. -/
def suffixes : List Char → List (List Char)
  | [] => [[]]
  | c :: cs => (c :: cs) :: suffixes cs

/-- What is left of a text after each slash, and at its end. -/
def componentStarts : List Char → List (List Char)
  | [] => [[]]
  | c :: cs => if c = '/' then cs :: componentStarts cs else componentStarts cs

/-- The first outcome that is no mismatch. -/
def tryEach (attempt : List Char → Outcome) : List (List Char) → Outcome
  | [] => .mismatch
  | cs :: rest =>
    match attempt cs with
    | .mismatch => tryEach attempt rest
    | outcome => outcome

/-- Try tokens on a whole text. -/
def run : List Token → List Char → Outcome
  | [], [] => .found
  | [], _ :: _ => .mismatch
  | .anyText :: ts, cs => tryEach (run ts) (suffixes cs)
  | .anyComponents :: ts, cs => tryEach (run ts) (cs :: componentStarts cs)
  | _ :: _, [] => .exhausted
  | .char d :: ts, c :: cs => if c = d then run ts cs else .mismatch
  | .anyChar :: ts, _ :: cs => run ts cs
  | .oneOf listed :: ts, c :: cs => if listed.any (·.holds c) then run ts cs else .mismatch
  | .noneOf listed :: ts, c :: cs => if listed.any (·.holds c) then .mismatch else run ts cs

end Pattern

/-- A pattern of paths. -/
structure Pattern where
  tokens : List Pattern.Token
deriving DecidableEq, Repr

namespace Pattern

/-- Read a pattern. -/
def parse (text : String) : Except Fault Pattern :=
  (readTokens text.toList.length none text.toList).map fun ts => ⟨ts⟩

/-- Whether a path as a whole fits a pattern. -/
def fits (p : Pattern) (path : String) : Bool := run p.tokens path.toList == .found

end Pattern

end BuildGraph
