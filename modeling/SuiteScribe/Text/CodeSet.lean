/-!
# Sets of code points

A Unicode property is given by the ranges of the code points that have it, in ascending order.
-/

namespace SuiteScribe

/-- Ranges of code points, both ends included. -/
abbrev CodeSet := List (Nat × Nat)

/-- Whether one of the ranges holds `n`. -/
def CodeSet.holds (s : CodeSet) (n : Nat) : Bool :=
  s.any fun r => r.1 ≤ n && n ≤ r.2

end SuiteScribe
