/-!
# Path texts

Paths are plain texts put together by joining; nothing in them is resolved or normalised.
-/

namespace BuildGraph.Path

/-- Whether a path starts at the root of the file system. -/
def isAbsolute (path : String) : Bool := path.toList.head? == some '/'

/-- Whether nothing has to stand between a path and what is joined to it. -/
def isOpen (path : String) : Bool := path.isEmpty || path.toList.getLast? == some '/'

/-- `sub` below `base`. An absolute `sub` stands alone, and joining the empty text closes `base` with
a slash. -/
def join (base sub : String) : String :=
  if isAbsolute sub then sub
  else if isOpen base then base ++ sub
  else base ++ "/" ++ sub

/-- A path that starts at the root forgets what it is joined to. -/
theorem join_of_isAbsolute {sub : String} (h : isAbsolute sub) (base : String) :
    join base sub = sub := by
  simp [join, h]

example : join "a" "" = "a/" := by decide +kernel
example : join "a/" "" = "a/" := by decide +kernel
example : join "a" "/b" = "/b" := by decide +kernel

end BuildGraph.Path
