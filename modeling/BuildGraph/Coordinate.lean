/-!
# Coordinates of published modules

A module published outside the workspace is named by group, artifact and perhaps a version.
-/

namespace BuildGraph

/-- The name of a published module. -/
structure Coordinate where
  group : String
  artifact : String
  /-- The pinned version; without one the host chooses. -/
  version : Option String := none
  /-- An output of the module other than its default one. -/
  subTarget : Option String := none
deriving DecidableEq, Repr

namespace Coordinate

/-- The short form `group:artifact` or `group:artifact:version`. A version that is present is written
even if it is empty. -/
def shorthand (c : Coordinate) : String :=
  match c.version with
  | none => c.group ++ ":" ++ c.artifact
  | some version => c.group ++ ":" ++ c.artifact ++ ":" ++ version

/-- The short form followed by the output in parentheses, if one is selected. -/
def display (c : Coordinate) : String :=
  match c.subTarget with
  | none => c.shorthand
  | some subTarget => c.shorthand ++ " (" ++ subTarget ++ ")"

end Coordinate

end BuildGraph
