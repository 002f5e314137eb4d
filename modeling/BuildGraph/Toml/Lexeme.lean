/-!
# Lexemes

The parts of a document text that carry no value by themselves: blanks, line ends, comments and bare
words.
-/

namespace BuildGraph.Toml

/-- A step that reads something from the start of a text and gives the rest. -/
abbrev Reader (α : Type) := List Char → Option (α × List Char)

/-- Whether a character may stand between two lexemes of one line. -/
def isSpace (c : Char) : Bool := c = ' ' || c = '\t'

/-- Whether a character may stand in a comment; control characters other than the tab may not. -/
def isCommentChar (c : Char) : Bool := c = '\t' || (0x20 ≤ c.toNat && c.toNat != 0x7F)

/-- Whether a character may stand in a key without quotes. -/
def isKeyChar (c : Char) : Bool := c.isAlphanum || c = '-' || c = '_'

/-- Whether a character may stand in a number, a truth value or a date-time. -/
def isWordChar (c : Char) : Bool := c.isAlphanum || c = '-' || c = '+' || c = '_' || c = '.' || c = ':'

/-- The text after blanks of its line. -/
def skipSpaces (cs : List Char) : List Char := cs.dropWhile isSpace

/-- The text after a line end, if it starts with one. -/
def newline? : List Char → Option (List Char)
  | '\n' :: cs => some cs
  | '\r' :: '\n' :: cs => some cs
  | _ => none

/-- The text after the end of its line: blanks, perhaps a comment, then a line end or nothing. -/
def lineEnd? (cs : List Char) : Option (List Char) :=
  let rest :=
    match skipSpaces cs with
    | '#' :: comment => comment.dropWhile isCommentChar
    | rest => rest
  if rest.isEmpty then some [] else newline? rest

/-- The text after blanks, line ends and comments. Inside a comment only its characters and the line
end may follow. -/
def skipLayout (inComment : Bool) : List Char → Option (List Char)
  | [] => if inComment then none else some []
  | '\r' :: '\n' :: cs => skipLayout false cs
  | c :: cs =>
    if c = '\n' then skipLayout false cs
    else if inComment then if isCommentChar c then skipLayout true cs else none
    else if isSpace c then skipLayout false cs
    else if c = '#' then skipLayout true cs
    else some (c :: cs)

end BuildGraph.Toml
