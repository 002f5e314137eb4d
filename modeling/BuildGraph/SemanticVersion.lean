import BuildGraph.Text.QuotedChar

/-!
# Semantic versions

A version is three numbers, perhaps with pre-release identifiers after a dash and build identifiers
after a plus sign. Versions are ordered by the numbers, then by pre-release (none comes last), then by
build (none comes first).
-/

namespace BuildGraph

/-- A part of a version between dots. -/
inductive VersionIdentifier where
  /-- Digits only: their value and how many there are. -/
  | numeric (value width : Nat)
  | alphanumeric (text : String)
deriving DecidableEq, Repr

/-- A version. -/
structure SemanticVersion where
  major : Nat
  minor : Nat
  patch : Nat
  preRelease : List VersionIdentifier := []
  build : List VersionIdentifier := []
deriving DecidableEq, Repr

/-- Numbers come before other identifiers. Of numbers with one value, the one with fewer leading zeros
comes first. -/
def VersionIdentifier.compare : VersionIdentifier → VersionIdentifier → Ordering
  | .numeric value width, .numeric value' width' =>
    (Ord.compare value value').then (Ord.compare width width')
  | .numeric .., .alphanumeric _ => .lt
  | .alphanumeric _, .numeric .. => .gt
  | .alphanumeric text, .alphanumeric text' => Ord.compare text text'

instance : Ord VersionIdentifier := ⟨VersionIdentifier.compare⟩

namespace SemanticVersion

/-- The order of pre-releases: a version without one comes after all that have one. -/
def comparePreRelease : List VersionIdentifier → List VersionIdentifier → Ordering
  | [], [] => .eq
  | [], _ :: _ => .gt
  | _ :: _, [] => .lt
  | a, b => Ord.compare a b

/-- The order of versions. -/
def compare (a b : SemanticVersion) : Ordering :=
  (Ord.compare a.major b.major).then <|
  (Ord.compare a.minor b.minor).then <|
  (Ord.compare a.patch b.patch).then <|
  (comparePreRelease a.preRelease b.preRelease).then <|
  Ord.compare a.build b.build

instance : Ord SemanticVersion := ⟨compare⟩

/-- A part of the text of a version. -/
inductive Part where
  | major
  | minor
  | patch
  | preRelease
  | build
deriving DecidableEq, Repr

/-- What a part is called. -/
def Part.name : Part → String
  | .major => "major version number"
  | .minor => "minor version number"
  | .patch => "patch version number"
  | .preRelease => "pre-release identifier"
  | .build => "build metadata"

/-- Why a text is no version. -/
inductive Fault where
  | empty
  | unexpectedEnd (part : Part)
  /-- The part starts with a character that it cannot hold. -/
  | unexpectedChar (part : Part) (c : Char)
  | unexpectedCharAfter (part : Part) (c : Char)
  | leadingZero (part : Part)
  | tooLarge (part : Part)
  | emptySegment (part : Part)
deriving DecidableEq, Repr

/-- The fault in words. -/
def Fault.message : Fault → String
  | .empty => "empty string, expected a semver version"
  | .unexpectedEnd part => "unexpected end of input while parsing " ++ part.name
  | .unexpectedChar part c =>
    "unexpected character " ++ Text.quoteChar c ++ " while parsing " ++ part.name
  | .unexpectedCharAfter part c =>
    "unexpected character " ++ Text.quoteChar c ++ " after " ++ part.name
  | .leadingZero part => "invalid leading zero in " ++ part.name
  | .tooLarge part => "value of " ++ part.name ++ " exceeds u64::MAX"
  | .emptySegment part => "empty identifier segment in " ++ part.name

/-- The largest number a version may hold. -/
def maxNumber : Nat := Nat.pow 2 64 - 1

/-- The number that decimal digits write. -/
def decimal (digits : List Char) : Nat := digits.foldl (fun n c => 10 * n + (c.toNat - 48)) 0

/-- Read a number. -/
def number (part : Part) (cs : List Char) : Except Fault (Nat × List Char) :=
  match cs.takeWhile Char.isDigit, cs.dropWhile Char.isDigit with
  | [], [] => .error (.unexpectedEnd part)
  | [], c :: _ => .error (.unexpectedChar part c)
  | '0' :: _ :: _, _ => .error (.leadingZero part)
  | digits, rest =>
    if maxNumber < decimal digits then .error (.tooLarge part) else .ok (decimal digits, rest)

/-- Read the dot after a number. -/
def dot (part : Part) : List Char → Except Fault (List Char)
  | [] => .error (.unexpectedEnd part)
  | c :: cs => if c = '.' then .ok cs else .error (.unexpectedCharAfter part c)

/-- Whether a character may stand in an identifier. -/
def isIdentifierChar (c : Char) : Bool := c.isAlphanum || c = '-'

/-- The identifier of a segment. A number of a pre-release has no superfluous zero at its start. -/
def identifier (part : Part) (segment : List Char) : Except Fault VersionIdentifier :=
  if segment.isEmpty then .error (.emptySegment part)
  else if segment.all Char.isDigit then
    if part = .preRelease ∧ 1 < segment.length ∧ segment.head? = some '0' then
      .error (.leadingZero part)
    else .ok (.numeric (decimal segment) segment.length)
  else .ok (.alphanumeric (.ofList segment))

/-- Read identifiers between dots; `segment` holds what has been read of the first one, backwards. -/
def identifiers (part : Part) (segment : List Char) :
    List Char → Except Fault (List VersionIdentifier × List Char)
  | [] => (identifier part segment.reverse).map fun i => ([i], [])
  | c :: cs =>
    if isIdentifierChar c then identifiers part (c :: segment) cs
    else
      match identifier part segment.reverse with
      | .error fault => .error fault
      | .ok i =>
        if c = '.' then (identifiers part [] cs).map fun (is, rest) => (i :: is, rest)
        else .ok ([i], c :: cs)

/-- Read identifiers that a sign announces; without the sign there are none. The part read last comes
with the rest. -/
def announced (sign : Char) (part before : Part) (cs : List Char) :
    Except Fault (List VersionIdentifier × Part × List Char) :=
  match cs with
  | [] => .ok ([], before, [])
  | c :: rest =>
    if c = sign then (identifiers part [] rest).map fun (is, rest) => (is, part, rest)
    else .ok ([], before, c :: rest)

/-- Read a version. -/
def parse (text : String) : Except Fault SemanticVersion := do
  if text.isEmpty then throw .empty
  let (major, rest) ← number .major text.toList
  let rest ← dot .major rest
  let (minor, rest) ← number .minor rest
  let rest ← dot .minor rest
  let (patch, rest) ← number .patch rest
  let (preRelease, part, rest) ← announced '-' .preRelease .patch rest
  let (build, part, rest) ← announced '+' .build part rest
  match rest with
  | [] => return { major, minor, patch, preRelease, build }
  | c :: _ => throw (.unexpectedCharAfter part c)

/-- The text that is no version, and why. -/
structure InvalidVersion where
  version : String
  why : Fault
deriving DecidableEq, Repr

/-- The fault in words. -/
def InvalidVersion.message (f : InvalidVersion) : String :=
  "invalid version \"" ++ f.version ++ "\": " ++ f.why.message

/-- Read a version and keep its text for the fault. -/
def read (text : String) : Except InvalidVersion SemanticVersion :=
  (parse text).mapError fun why => ⟨text, why⟩

/-- The order of two versions in text. The left one is read first. -/
def compareTexts (left right : String) : Except InvalidVersion Ordering := do
  let a ← read left
  let b ← read right
  return compare a b

end SemanticVersion

end BuildGraph
