/-!
# Reading decimals

The double nearest to a decimal, of any length and exponent. `Float.ofScientific` rounds correctly;
what is added here keeps its work in proportion to the text, by answering at once for decimals far
outside the range of doubles.
-/

namespace ViewConstraints.Decimal

/-- The number of decimal digits of `n`; zero has one. -/
def digitCount (n : Nat) : Nat := (Nat.toDigits 10 n).length

/-- The double nearest to `significand * 10 ^ exponent`. Every decimal from `10 ^ 310` on is beyond
the greatest double, and every one below `10 ^ (-330)` is nearest to zero. -/
def toDouble (significand : Nat) (exponent : Int) : Float :=
  let magnitude := Int.ofNat (digitCount significand) + exponent
  if significand = 0 then 0.0
  else if 310 < magnitude then 1.0 / 0.0
  else if magnitude < -330 then 0.0
  else Float.ofScientific significand (exponent < 0) exponent.natAbs

/-- The double nearest to an integer. -/
def ofInt (n : Int) : Float :=
  if n < 0 then -toDouble n.natAbs 0 else toDouble n.natAbs 0

end ViewConstraints.Decimal
