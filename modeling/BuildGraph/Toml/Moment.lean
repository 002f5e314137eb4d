import BuildGraph.Toml.Lexeme

/-!
# Points in time

A date, a time of day, or a date followed by a time of day and perhaps its distance from universal
time. Days must exist in their month; a minute may have a leap second. A point in time has one standard
text, whichever way it was written.
-/

namespace BuildGraph.Toml

/-- A day of the calendar. -/
structure CalendarDay where
  year : Nat
  month : Nat
  day : Nat
deriving DecidableEq, Repr

/-- A time of day. -/
structure ClockTime where
  hour : Nat
  minute : Nat
  second : Nat
  nanosecond : Nat
deriving DecidableEq, Repr

/-- How a time of day is related to universal time. -/
inductive Offset where
  | universal
  /-- The time is ahead by so many minutes. -/
  | ahead (minutes : Int)
deriving DecidableEq, Repr

/-- A point in time. -/
inductive Moment where
  | day (d : CalendarDay)
  | time (t : ClockTime)
  | both (d : CalendarDay) (t : ClockTime) (offset : Option Offset)
deriving DecidableEq, Repr

/-- The number two digits write, if it lies within bounds. -/
def twoDigits? (low high : Nat) (a b : Char) : Option Nat :=
  if a.isDigit && b.isDigit then
    let n := 10 * (a.toNat - 48) + (b.toNat - 48)
    if low ≤ n ∧ n ≤ high then some n else none
  else none

/-- The number of days of a month. -/
def daysIn (year month : Nat) : Nat :=
  if month = 2 then
    if year % 4 = 0 ∧ (year % 100 ≠ 0 ∨ year % 400 = 0) then 29 else 28
  else if month = 4 ∨ month = 6 ∨ month = 9 ∨ month = 11 then 30
  else 31

/-- Read a day written with four, two and two digits. -/
def calendarDay : Reader CalendarDay
  | y₁ :: y₂ :: y₃ :: y₄ :: '-' :: m₁ :: m₂ :: '-' :: d₁ :: d₂ :: cs => do
    let century ← twoDigits? 0 99 y₁ y₂
    let year := 100 * century + (← twoDigits? 0 99 y₃ y₄)
    let month ← twoDigits? 1 12 m₁ m₂
    let day ← twoDigits? 1 (daysIn year month) d₁ d₂
    return (⟨year, month, day⟩, cs)
  | _ => none

/-- The number of digits of a fraction of a second that count. -/
def fractionDigits : Nat := 9

/-- The nanoseconds that the digits of a fraction of a second write. Digits that do not count are
dropped. -/
def nanoseconds (digits : List Char) : Nat :=
  (digits ++ List.replicate fractionDigits '0').take fractionDigits
    |>.foldl (fun n c => 10 * n + (c.toNat - 48)) 0

/-- Read the fraction of a second, which may be left out. -/
def fraction : Reader Nat
  | '.' :: cs =>
    let digits := cs.takeWhile Char.isDigit
    if digits.isEmpty then none else some (nanoseconds digits, cs.dropWhile Char.isDigit)
  | cs => some (0, cs)

/-- Read a time of hour, minute and second, perhaps with a fraction of the second. -/
def clockTime : Reader ClockTime
  | h₁ :: h₂ :: ':' :: m₁ :: m₂ :: ':' :: s₁ :: s₂ :: cs => do
    let hour ← twoDigits? 0 23 h₁ h₂
    let minute ← twoDigits? 0 59 m₁ m₂
    let second ← twoDigits? 0 60 s₁ s₂
    let (nanosecond, rest) ← fraction cs
    return (⟨hour, minute, second, nanosecond⟩, rest)
  | _ => none

/-- The distance from universal time that a text writes. -/
def offset? : List Char → Option Offset
  | ['Z'] => some .universal
  | ['z'] => some .universal
  | [sign, h₁, h₂, ':', m₁, m₂] => do
    let minutes : Int := 60 * (← twoDigits? 0 23 h₁ h₂) + (← twoDigits? 0 59 m₁ m₂)
    if sign = '+' then some (.ahead minutes)
    else if sign = '-' then some (.ahead (-minutes))
    else none
  | _ => none

/-- The point in time that a day and the text of a time of that day make. -/
def CalendarDay.at? (day : CalendarDay) (text : List Char) : Option Moment := do
  match ← clockTime text with
  | (time, []) => return .both day time none
  | (time, rest) => return .both day time (some (← offset? rest))

/-- The point in time that a word writes: a day, a time, or both joined by the letter `T`. -/
def moment? (word : List Char) : Option Moment :=
  match clockTime word with
  | some (time, []) => some (.time time)
  | _ =>
    match calendarDay word with
    | some (day, []) => some (.day day)
    | some (day, c :: time) => if c = 'T' ∨ c = 't' then day.at? time else none
    | none => none

/-- The digits of a number, filled with zeros at the front up to a width. -/
def padded (width n : Nat) : List Char :=
  let digits := Nat.toDigits 10 n
  List.replicate (width - digits.length) '0' ++ digits

/-- The standard text of a day. -/
def CalendarDay.text (d : CalendarDay) : List Char :=
  padded 4 d.year ++ '-' :: padded 2 d.month ++ '-' :: padded 2 d.day

/-- The text of a fraction of a second, without zeros at the end. -/
def fractionText (nanosecond : Nat) : List Char :=
  if nanosecond = 0 then []
  else '.' :: ((padded fractionDigits nanosecond).reverse.dropWhile (· = '0')).reverse

/-- The standard text of a time of day. -/
def ClockTime.text (t : ClockTime) : List Char :=
  padded 2 t.hour ++ ':' :: padded 2 t.minute ++ ':' :: padded 2 t.second
    ++ fractionText t.nanosecond

/-- The standard text of a distance from universal time. -/
def Offset.text : Offset → List Char
  | .universal => ['Z']
  | .ahead minutes =>
    let n := minutes.natAbs
    (if minutes < 0 then '-' else '+') :: padded 2 (n / 60) ++ ':' :: padded 2 (n % 60)

/-- The standard text of a point in time. -/
def Moment.text : Moment → List Char
  | .day d => d.text
  | .time t => t.text
  | .both d t offset => d.text ++ 'T' :: t.text ++ (offset.map Offset.text).getD []

end BuildGraph.Toml
