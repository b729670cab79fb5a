/-!
# Sets of characters

A set of characters is given by the intervals of code points it consists of, both ends included.
-/

namespace Deduction.Text

/-- Membership in the set of characters that consists of the given intervals of code points. -/
def within (intervals : List (Nat × Nat)) (c : Char) : Bool :=
  intervals.any fun i => i.1 ≤ c.toNat && c.toNat ≤ i.2

end Deduction.Text
