import BuildGraph.Text.Invisible

/-!
# Characters in single quotes

A character is shown between apostrophes so that it can be told from every other one: those that could
not be seen, and the two that would be mistaken for the notation, are written as escapes.
-/

namespace BuildGraph.Text

/-- The digits of a number in base sixteen. -/
def hexDigits (n : Nat) : String := String.ofList (Nat.toDigits 16 n)

/-- A character between apostrophes. -/
def quoteChar (c : Char) : String :=
  let shown :=
    if c = Char.ofNat 0 then "\\0"
    else if c = '\t' then "\\t"
    else if c = '\r' then "\\r"
    else if c = '\n' then "\\n"
    else if c = '\'' then "\\'"
    else if c = '\\' then "\\\\"
    else if isInvisible c then "\\u\x7b" ++ hexDigits c.toNat ++ "\x7d"
    else String.singleton c
  "'" ++ shown ++ "'"

end BuildGraph.Text
