import Mathlib.Data.Prod.Lex
import BuildGraph.SemanticVersion

/-!
# The order of versions

Versions are compared by several keys one after the other, each of which is ordered by itself. The order of
versions is therefore transitive, whatever pre-release and build identifiers they have. Releases, which have
neither, are ordered like the triples of their numbers.
-/

namespace BuildGraph

namespace VersionIdentifier

/-- Whether an identifier has other characters than digits. -/
def isText : VersionIdentifier → Bool
  | numeric .. => false
  | alphanumeric _ => true

/-- The number that an identifier of digits writes. -/
def value : VersionIdentifier → Nat
  | numeric value _ => value
  | alphanumeric _ => 0

/-- How many digits an identifier of digits has. -/
def width : VersionIdentifier → Nat
  | numeric _ width => width
  | alphanumeric _ => 0

/-- The characters of an identifier of other characters. -/
def text : VersionIdentifier → String
  | numeric .. => ""
  | alphanumeric text => text

/-- Identifiers are compared by their kind first, and then by what is proper to their kind. -/
theorem compare_eq_lex :
    VersionIdentifier.compare =
      compareLex (compareOn isText)
        (compareLex (compareOn value) (compareLex (compareOn width) (compareOn text))) := by
  funext a b
  cases a with
  | numeric value width =>
    cases b with
    | numeric value' width' =>
      simp [VersionIdentifier.compare, compareLex, compareOn, isText, VersionIdentifier.value,
        VersionIdentifier.width, VersionIdentifier.text]
    | alphanumeric text => rfl
  | alphanumeric text =>
    cases b with
    | numeric value' width' => rfl
    | alphanumeric text' => rfl

instance : Std.TransOrd VersionIdentifier := by
  change Std.TransCmp VersionIdentifier.compare
  rw [compare_eq_lex]
  infer_instance

end VersionIdentifier

namespace SemanticVersion

/-- Among lists of pre-release identifiers the empty one comes last. -/
theorem comparePreRelease_eq_lex :
    comparePreRelease = compareLex (compareOn List.isEmpty) Ord.compare := by
  funext a b
  cases a with
  | nil =>
    cases b with
    | nil => rfl
    | cons y ys => rfl
  | cons x xs =>
    cases b with
    | nil => rfl
    | cons y ys => rfl

/-- Versions are compared by their numbers, then as pre-releases, then by their build. -/
theorem compare_eq_lex :
    SemanticVersion.compare =
      compareLex (compareOn major) (compareLex (compareOn minor) (compareLex (compareOn patch)
        (compareLex (compareOn fun v => v.preRelease.isEmpty)
          (compareLex (compareOn preRelease) (compareOn build))))) := by
  funext a b
  have hpre : comparePreRelease a.preRelease b.preRelease =
      (Ord.compare a.preRelease.isEmpty b.preRelease.isEmpty).then
        (Ord.compare a.preRelease b.preRelease) := by
    rw [comparePreRelease_eq_lex]
    rfl
  simp only [SemanticVersion.compare, compareLex, compareOn, hpre, Ordering.then_assoc]

instance : Std.TransOrd SemanticVersion := by
  change Std.TransCmp SemanticVersion.compare
  rw [compare_eq_lex]
  infer_instance

/-- A version that is not before one at or above a bound is at or above it itself. -/
theorem compare_ne_lt_of_ne_gt {a b bound : SemanticVersion} (h : compare a b ≠ .gt)
    (ha : compare a bound ≠ .lt) : compare b bound ≠ .lt := by
  change Ord.compare a b ≠ .gt at h
  have hlt : Ord.compare b a ≠ .lt := fun e => h (Std.OrientedCmp.gt_iff_lt.mpr e)
  have hba : (Ord.compare b a).isGE := Ordering.isGE_iff_ne_lt.mpr hlt
  have hbound : (Ord.compare a bound).isGE := Ordering.isGE_iff_ne_lt.mpr ha
  exact Ordering.isGE_iff_ne_lt.mp (Std.TransOrd.isGE_trans hba hbound)

/-- Releases are ordered like the triples of their numbers, of which the first one counts most. -/
theorem compare_releases (a b c d e f : Nat) :
    compare { major := a, minor := b, patch := c } { major := d, minor := e, patch := f } =
      Ord.compare (toLex (a, toLex (b, c))) (toLex (d, toLex (e, f))) := by
  have hnil : Ord.compare ([] : List VersionIdentifier) [] = .eq := rfl
  simp only [compare, comparePreRelease, hnil, Prod.Lex.compare_def, compareLex, compareOn, ofLex_toLex,
    Ordering.then_eq]

end SemanticVersion

end BuildGraph
