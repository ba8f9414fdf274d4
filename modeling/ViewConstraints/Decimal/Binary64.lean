/-!
# Double-precision numbers as integers

A finite double is a significand times a power of two, with a sign. Printing and rounding work on
these integers, so every digit they choose is exact.
-/

namespace ViewConstraints

/-- What a double-precision number is: not a number, an infinity, or plus or minus
`significand * 2 ^ exponent`. The sign of a zero is kept. -/
inductive Binary64 where
  | notANumber
  | infinite (negative : Bool)
  | finite (negative : Bool) (significand : Nat) (exponent : Int)
  deriving DecidableEq, Repr

namespace Binary64

/-- The significand of a normal number with an empty fraction field. -/
def hiddenBit : Nat := Nat.pow 2 52

/-- The exponent of the subnormal numbers, and the least there is. -/
def leastExponent : Int := -1074

/-- Reads the three fields of a double: sign, biased exponent and fraction. -/
def ofFloat (x : Float) : Binary64 :=
  let bits := x.toBits.toNat
  let negative := decide (Nat.pow 2 63 ≤ bits)
  let biased := bits / hiddenBit % Nat.pow 2 11
  let fraction := bits % hiddenBit
  if biased = 2047 then
    if fraction = 0 then infinite negative else notANumber
  else if biased = 0 then finite negative fraction leastExponent
  else finite negative (hiddenBit + fraction) (Int.ofNat biased - 1075)

end Binary64

/-- A non-negative fraction of two integers. -/
structure Ratio where
  numerator : Nat
  denominator : Nat
  deriving Repr

namespace Ratio

/-- `n` times `base` to a power of either sign. -/
def scaled (n base : Nat) (power : Int) : Ratio :=
  ⟨n * base.pow power.toNat, base.pow (-power).toNat⟩

/-- The integer nearest to the fraction; a half goes to the even neighbour. -/
def roundHalfEven (r : Ratio) : Nat :=
  let whole := r.numerator / r.denominator
  let twice := 2 * (r.numerator % r.denominator)
  if twice < r.denominator then whole
  else if r.denominator < twice then whole + 1
  else if whole % 2 = 0 then whole else whole + 1

end Ratio

end ViewConstraints
