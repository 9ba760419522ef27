/-!
# Sets of characters as intervals of code points

The classes of characters of this library are those of a standard, so beyond the seven-bit
characters they are data: intervals of code points, both ends included, in rising order.
-/

namespace PatternSql.Text

/-- A set of code points, as intervals with both ends included. -/
abbrev Ranges := List (Nat × Nat)

/-- Membership of a code point in one of the intervals. -/
def Ranges.has (ranges : Ranges) (code : Nat) : Bool :=
  ranges.any fun range => range.1 ≤ code && code ≤ range.2

theorem Ranges.has_iff {ranges : Ranges} {code : Nat} :
    ranges.has code = true ↔ ∃ range ∈ ranges, range.1 ≤ code ∧ code ≤ range.2 := by
  simp [Ranges.has]

end PatternSql.Text
