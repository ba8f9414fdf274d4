/-!
# The numbers a layout is computed with

Geometry, linear expressions and the solver are written over any type of numbers with the
operations of `Scalar`, so that the same definitions run on binary floating point (`Float`), where
layouts are solved, and on exact fractions (`Rat`), where the meaning of a layout is stated.

Nothing here assumes a law of arithmetic: floating-point numbers satisfy few of them.
-/

namespace ViewConstraints

/-- What geometry and solving ask of a type of numbers. Comparison is numeric, so a number that is
not ordered (a NaN) is neither less than nor equal to any other, itself included. -/
class Scalar (K : Type) extends Add K, Sub K, Mul K, Div K, Neg K, LT K, BEq K, OfScientific K where
  /-- Order is decided by computation. -/
  decideLt : DecidableLT K
  /-- Whether a number lies below positive infinity; true of every number of an exact type. -/
  belowInfinity : K → Bool

instance Scalar.decidableLT {K : Type} [Scalar K] : DecidableLT K := Scalar.decideLt

instance {K : Type} [Scalar K] : Inhabited K := ⟨0.0⟩

/-- Binary floating-point numbers of double precision. -/
instance : Scalar Float where
  decideLt := inferInstance
  belowInfinity x := x < 1.0 / 0.0

/-- Exact fractions. -/
instance : Scalar Rat where
  decideLt := inferInstance
  belowInfinity _ := true

/-- Whether `x` counts as zero in a tableau: its magnitude is below one hundred-millionth. A NaN
does not count as zero. -/
def isNearZero {K : Type} [Scalar K] (x : K) : Bool :=
  if x < 0.0 then -x < 1e-8 else x < 1e-8

end ViewConstraints
