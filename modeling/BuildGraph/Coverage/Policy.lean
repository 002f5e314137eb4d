import BuildGraph.Pattern
import BuildGraph.Settings

/-!
# Coverage policy

A project gets coverage tasks if its path fits a pattern that takes it in and none that takes it out.
-/

namespace BuildGraph

/-- Which projects get coverage tasks. -/
structure CoveragePolicy where
  includes : List Pattern
  excludes : List Pattern
deriving DecidableEq

/-- A text that is no pattern, and why. -/
structure InvalidPattern where
  text : String
  why : Pattern.Fault
deriving DecidableEq, Repr

/-- The fault in words. -/
def InvalidPattern.message (f : InvalidPattern) : String :=
  "invalid project pattern `" ++ f.text ++ "`: " ++ f.why.message

namespace CoveragePolicy

/-- Read patterns, or find the first text that is none. -/
def readPatterns : List String → Except InvalidPattern (List Pattern)
  | [] => .ok []
  | text :: texts =>
    match Pattern.parse text with
    | .error why => .error ⟨text, why⟩
    | .ok pattern => (readPatterns texts).map (pattern :: ·)

/-- The policy of two lists of patterns; those that take projects in are read first. -/
def ofTexts (includes excludes : List String) : Except InvalidPattern CoveragePolicy := do
  let includes ← readPatterns includes
  let excludes ← readPatterns excludes
  return { includes, excludes }

/-- Whether a project gets coverage tasks. -/
def isEligible (policy : CoveragePolicy) (path : String) : Bool :=
  policy.includes.any (·.fits path) && !policy.excludes.any (·.fits path)

end CoveragePolicy

end BuildGraph
