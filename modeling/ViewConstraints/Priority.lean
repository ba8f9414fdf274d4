import ViewConstraints.Scalar

/-!
# Priorities of constraints

A required constraint holds or is refused; the three softer priorities are weighed against each
other, a thousandfold apart, when not all of them can hold.
-/

namespace ViewConstraints

/-- How strongly a constraint is wanted. -/
inductive Priority where
  | required
  | strong
  | medium
  | weak
  deriving DecidableEq, Repr, Inhabited

namespace Priority

/-- The cost of missing a constraint of this priority by one unit. -/
def weight {K : Type} [Scalar K] : Priority → K
  | required => 1001001000.0
  | strong => 1000000.0
  | medium => 1000.0
  | weak => 1.0

end Priority

end ViewConstraints
