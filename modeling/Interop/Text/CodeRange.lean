/-
# Sets of characters given by ranges of code points

A property of characters is a list of closed ranges of code points.
`memRanges_iff` says what membership means.
-/

namespace Interop
namespace Text

/-- The code points from the first component to the second, both included. -/
abbrev CodeRange := Nat × Nat

/-- Whether one of the ranges holds `n`. -/
def memRanges (ranges : List CodeRange) (n : Nat) : Bool :=
  ranges.any fun r => r.1 ≤ n && n ≤ r.2

/-- A number is in a list of ranges when it is in one of them. -/
theorem memRanges_iff {ranges : List CodeRange} {n : Nat} :
    memRanges ranges n = true ↔ ∃ r ∈ ranges, r.1 ≤ n ∧ n ≤ r.2 := by
  simp [memRanges]

end Text
end Interop
