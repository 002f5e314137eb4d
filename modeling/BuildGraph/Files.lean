/-!
# Files a run can see

A run reads its inputs from a view of the file system in which each path names a file, a directory or
nothing. Reading gives the text of a file or the reason why there is none.
-/

namespace BuildGraph

/-- Why a path gives no text. -/
inductive AccessFailure where
  /-- Nothing is there. -/
  | notFound
  /-- The path leads through something that is no directory. -/
  | notDirectory
  /-- A directory is there. -/
  | isDirectory
  /-- The path, or a component of it, is longer than it may be. -/
  | nameTooLong
  /-- The path holds the character that ends a path for the system. -/
  | nulInPath
  /-- The bytes of the file are no UTF-8. -/
  | notText
  /-- The system refuses for another reason, which has a text and a number. -/
  | refused (text : String) (code : Nat)
deriving DecidableEq, Repr

/-- The reason in words. -/
def AccessFailure.message : AccessFailure → String
  | .notFound => "No such file or directory (os error 2)"
  | .notDirectory => "Not a directory (os error 20)"
  | .isDirectory => "Is a directory (os error 21)"
  | .nameTooLong => "File name too long (os error 36)"
  | .nulInPath => "file name contained an unexpected NUL byte"
  | .notText => "stream did not contain valid UTF-8"
  | .refused text code => text ++ " (os error " ++ toString code ++ ")"

/-- What a path names. -/
inductive Entry where
  | file (content : ByteArray)
  | directory
  | absent (why : AccessFailure)

/-- A view of the file system. -/
abbrev Files := String → Entry

namespace Files

/-- Whether anything is there. -/
def has (files : Files) (path : String) : Bool :=
  match files path with
  | .absent _ => false
  | _ => true

/-- The text of the file at `path`. -/
def readText (files : Files) (path : String) : Except AccessFailure String :=
  match files path with
  | .absent why => .error why
  | .directory => .error .isDirectory
  | .file content =>
    match String.fromUTF8? content with
    | some text => .ok text
    | none => .error .notText

/-- What can be read is there. -/
theorem has_of_readText {files : Files} {path text : String}
    (h : files.readText path = .ok text) : files.has path := by
  unfold readText at h
  unfold has
  split at h <;> simp_all

end Files

end BuildGraph
