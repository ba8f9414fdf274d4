/-!
# Sets of characters

A set of code points as a list of ranges, the form in which properties of characters are tabulated.
-/

namespace ViewConstraints.Text

/-- A set of code points given by ranges with both ends included. -/
structure CodePoints where
  ranges : List (Nat × Nat)

/-- Whether a character belongs to a set. -/
def CodePoints.contains (s : CodePoints) (c : Char) : Bool :=
  s.ranges.any fun r => decide (r.1 ≤ c.toNat ∧ c.toNat ≤ r.2)

end ViewConstraints.Text
