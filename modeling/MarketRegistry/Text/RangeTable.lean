/-!
# Tables of code point ranges

Properties of the Unicode standard are given as tables of ranges.
-/

namespace MarketRegistry

/-- A set of code points: closed ranges `(first, last)` in increasing order. -/
abbrev RangeTable := List (Nat × Nat)

/-- Membership in the set. The order of the ranges ends the search at the first range that
starts above `n`. -/
def RangeTable.contains : RangeTable → Nat → Bool
  | [], _ => false
  | (first, last) :: rest, n =>
    if n < first then false else if n ≤ last then true else RangeTable.contains rest n

end MarketRegistry
