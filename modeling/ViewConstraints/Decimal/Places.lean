import ViewConstraints.Decimal.Shortest

/-!
# Decimals with a limited number of places

Frames that a solver computed are written to six places, so that the last bits of a sum do not show.
The exact value of the double is rounded once, a half going to the even neighbour, and zeros at the
end are left out. A number too large for its places to carry information is written in full.
-/

namespace ViewConstraints.Decimal

/-- The places kept of a solved coordinate. -/
def solvedPlaces : Nat := 6

/-- The magnitude from which a solved coordinate is written in full. -/
def fullMagnitude : Float := 1e15

/-- Writes `significand * 2 ^ exponent` to `places` places without zeros at the end, and zero
without a sign. -/
def toPlaces (negative : Bool) (significand : Nat) (exponent : Int) (places : Nat) : String :=
  let scaled := Ratio.scaled (significand * Nat.pow 10 places) 2 exponent
  let rounded := scaled.roundHalfEven
  signText (negative && decide (0 < rounded)) ++ (Digits.mk rounded (-places)).positional

/-- Writes a coordinate computed by a solver. -/
def solved (x : Float) : String :=
  match Binary64.ofFloat x with
  | .finite negative significand exponent =>
    if fullMagnitude ≤ x.abs then shortest x
    else toPlaces negative significand exponent solvedPlaces
  | _ => shortest x

end ViewConstraints.Decimal
