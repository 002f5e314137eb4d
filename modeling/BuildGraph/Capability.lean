import BuildGraph.Toolchain

/-!
# Capabilities

What a project can do beyond compiling and testing. Capabilities are listed in a fixed order.
-/

namespace BuildGraph

/-- A capability of a project. -/
inductive Capability where
  | coverage
  | coverageAggregation
  | matrixBuild
  | toolchain (t : Toolchain)
deriving DecidableEq, Repr

namespace Capability

/-- What a capability is called. -/
def name : Capability → String
  | .coverage => "has-coverage"
  | .coverageAggregation => "has-coverage-aggregation"
  | .matrixBuild => "has-matrix-build"
  | .toolchain t => "toolchain-" ++ t.name

/-- The place of a capability in the order. -/
def rank : Capability → Nat
  | .coverage => 0
  | .coverageAggregation => 1
  | .matrixBuild => 2
  | .toolchain .quarkus => 3

/-- Capabilities of one rank are one, so that their order decides equality. -/
theorem rank_injective {a b : Capability} (h : a.rank = b.rank) : a = b := by
  cases a <;> cases b <;> simp_all [rank]

instance : Ord Capability := ⟨fun a b => compare a.rank b.rank⟩

instance : Std.TransOrd Capability where
  eq_swap := Std.OrientedOrd.eq_swap (α := Nat)
  isLE_trans := Std.TransOrd.isLE_trans (α := Nat)

instance : Std.LawfulEqOrd Capability where
  compare_self := Std.ReflOrd.compare_self (α := Nat)
  eq_of_compare h := rank_injective (Std.LawfulEqOrd.eq_of_compare h)

end Capability

end BuildGraph
