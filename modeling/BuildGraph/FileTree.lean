import BuildGraph.Files
import BuildGraph.Text.Fields

/-!
# Directory trees

A tree of named files and directories, and the walk that finds what a path names in it.
-/

namespace BuildGraph

/-- A file or a directory with its named members. -/
inductive FileTree where
  | file (content : ByteArray)
  | directory (members : List (String × FileTree))

namespace FileTree

/-- The directory without members. -/
def empty : FileTree := .directory []

/-- The longest name a member can have, in bytes. -/
def maxNameLength : Nat := 255

/-- The longest path that can be looked up, in bytes. -/
def maxPathLength : Nat := 4095

/-- Replace or add the member `name` of a directory. -/
def putMember (name : String) (member : FileTree) :
    List (String × FileTree) → List (String × FileTree)
  | [] => [(name, member)]
  | (n, t) :: rest => if n = name then (name, member) :: rest else (n, t) :: putMember name member rest

/-- Put `node` at the end of a list of names, making the directories that lead to it. -/
def put (node : FileTree) : List String → FileTree → FileTree
  | [], _ => node
  | name :: names, .directory members =>
    .directory (putMember name (put node names ((members.lookup name).getD empty)) members)
  | name :: names, .file _ => .directory [(name, put node names empty)]

/-- Follow path components from the directory on top of `trail`; the rest of `trail` is the way back
to the root. An empty component and `.` stay, `..` goes back, and each of them needs a directory. -/
def walk : List FileTree → List String → Entry
  | [], _ => .absent .notFound
  | .file content :: _, [] => .file content
  | .directory _ :: _, [] => .directory
  | .file _ :: _, _ :: _ => .absent .notDirectory
  | .directory members :: trail, name :: names =>
    if name = "" || name = "." then walk (.directory members :: trail) names
    else if name = ".." then
      match trail with
      | [] => walk [.directory members] names
      | parent :: above => walk (parent :: above) names
    else if maxNameLength < name.utf8ByteSize then .absent .nameTooLong
    else
      match members.lookup name with
      | none => .absent .notFound
      | some node => walk (node :: .directory members :: trail) names
termination_by _ names => names.length

/-- The nodes passed on the way down a list of names, the last one first. -/
def trailTo : List FileTree → List String → List FileTree
  | trail, [] => trail
  | .directory members :: trail, name :: names =>
    match members.lookup name with
    | none => .directory members :: trail
    | some node => trailTo (node :: .directory members :: trail) names
  | trail, _ => trail

/-- The view of a tree for a process whose current directory is found by following `current` from the
root. -/
def files (root : FileTree) (current : List String) : Files := fun path =>
  let components := (Text.fields '/' path.toList).map String.ofList
  if path.toList.contains (Char.ofNat 0) then .absent .nulInPath
  else if path.isEmpty then .absent .notFound
  else if maxPathLength < path.utf8ByteSize then .absent .nameTooLong
  else if path.toList.head? == some '/' then walk [root] components
  else walk (trailTo [root] current) components

end FileTree

end BuildGraph
