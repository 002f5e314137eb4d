import BuildGraph.Toml.Quoted

/-!
# Numbers

Integers are decimal with an optional sign, or hexadecimal, octal or binary without one, and fit
sixty-four bits. Other numbers have a fraction, an exponent or both, or are one of the words `inf` and
`nan`; a positive one has to be smaller than what rounds to infinity. An underscore may stand between
two digits.
-/

namespace BuildGraph.Toml

/-- Digits with single underscores between them. -/
def isDigits (isDigit : Char → Bool) : List Char → Bool
  | [] => false
  | [c] => isDigit c
  | c :: '_' :: cs => isDigit c && isDigits isDigit cs
  | c :: cs => isDigit c && isDigits isDigit cs

/-- Whether a text is a decimal number without sign and without superfluous zero at the start. -/
def isWhole (cs : List Char) : Bool :=
  isDigits Char.isDigit cs && (cs.head? != some '0' || cs.length == 1)

/-- Whether a number begins with a minus sign, and the number without its sign. -/
def cutSign : List Char → Bool × List Char
  | '-' :: cs => (true, cs)
  | '+' :: cs => (false, cs)
  | cs => (false, cs)

/-- The number that digits of a base write, underscores aside. -/
def digitsValue (base : Nat) (cs : List Char) : Nat :=
  cs.foldl (fun acc c => match hexDigit? c with | some d => base * acc + d | none => acc) 0

/-- The largest integer. -/
def maxInteger : Nat := Nat.pow 2 63 - 1

/-- An integer of a base other than ten. -/
def based? (base : Nat) (isDigit : Char → Bool) (cs : List Char) : Option Int :=
  if isDigits isDigit cs ∧ digitsValue base cs ≤ maxInteger then some (digitsValue base cs) else none

/-- The integer a word writes. -/
def integer? (word : List Char) : Option Int :=
  match word with
  | '0' :: 'x' :: cs => based? 16 (fun c => (hexDigit? c).isSome) cs
  | '0' :: 'o' :: cs => based? 8 (fun c => '0' ≤ c && c ≤ '7') cs
  | '0' :: 'b' :: cs => based? 2 (fun c => c = '0' || c = '1') cs
  | _ =>
    let (negative, cs) := cutSign word
    let n := digitsValue 10 cs
    if !isWhole cs then none
    else if negative then if n ≤ maxInteger + 1 then some (-n) else none
    else if n ≤ maxInteger then some n else none

/-- Whether `digits * 10 ^ exponent` rounds to infinity: it is at least half a step above the largest
finite number. -/
def overflows (digits : Nat) (exponent : Int) : Bool :=
  let bound := Nat.pow 2 1024 - Nat.pow 2 970
  let magnitude := (Nat.toDigits 10 digits).length + exponent
  if digits = 0 ∨ magnitude < 308 then false
  else if 310 < magnitude then true
  else if 0 ≤ exponent then bound ≤ digits * Nat.pow 10 exponent.toNat
  else bound * Nat.pow 10 (-exponent).toNat ≤ digits

/-- The parts of a text before and after the first character that satisfies `p`; no second part if
none does. -/
def cutAt (p : Char → Bool) (cs : List Char) : List Char × Option (List Char) :=
  match cs.dropWhile (!p ·) with
  | [] => (cs, none)
  | _ :: after => (cs.takeWhile (!p ·), some after)

/-- Whether a word is a number with fraction or exponent, or one that is not finite by name. -/
def isReal (word : List Char) : Bool :=
  let (negative, cs) := cutSign word
  if cs = ['i', 'n', 'f'] ∨ cs = ['n', 'a', 'n'] then true
  else
    let (mantissa, exponent) := cutAt (fun c => c = 'e' || c = 'E') cs
    let (whole, fraction) := cutAt (· = '.') mantissa
    let (negativeExponent, exponentDigits) := cutSign (exponent.getD ['0'])
    let size := digitsValue 10 exponentDigits
    let digits := fraction.getD []
    isWhole whole
      && (fraction.isSome || exponent.isSome)
      && (fraction.isNone || isDigits Char.isDigit digits)
      && isDigits Char.isDigit exponentDigits
      && (negative || !overflows (digitsValue 10 (whole ++ digits))
            ((if negativeExponent then -(size : Int) else size) - (digits.countP Char.isDigit : Nat)))

end BuildGraph.Toml
