import ViewConstraints.Decimal.Binary64

/-!
# The shortest decimal of a double

`Decimal.shortest` writes a double with the fewest significant digits that read back as the same
double, always in positional notation: no exponent, and no point after a whole number. The decimals
that read back are those of the interval halfway to the two neighbouring doubles, whose ends belong
to it exactly when the significand is even.
-/

namespace ViewConstraints.Decimal

/-- A decimal `digits * 10 ^ exponent`. -/
structure Digits where
  digits : Nat
  exponent : Int
  deriving Repr

/-- A positive double and the interval of numbers that round to it, as multiples of a quarter of its
last place over a common denominator. -/
structure RoundingInterval where
  low : Nat
  value : Nat
  high : Nat
  denominator : Nat
  /-- Whether the ends round to the double as well. -/
  closed : Bool

/-- The interval of `significand * 2 ^ exponent`. The double below a power of two is only half as far
away as the one above it, except at the bottom of the range. -/
def RoundingInterval.ofDouble (significand : Nat) (exponent : Int) : RoundingInterval :=
  let unit := Ratio.scaled 1 2 (exponent - 2)
  let below :=
    if significand = Binary64.hiddenBit ∧ Binary64.leastExponent < exponent then 1 else 2
  { low := (4 * significand - below) * unit.numerator
    value := 4 * significand * unit.numerator
    high := (4 * significand + 2) * unit.numerator
    denominator := unit.denominator
    closed := significand % 2 = 0 }

namespace RoundingInterval

/-- Whether `d * 10 ^ exponent` lies in the interval. -/
def contains (i : RoundingInterval) (d : Nat) (exponent : Int) : Bool :=
  let point := Ratio.scaled d 10 exponent
  let here := point.numerator * i.denominator
  let low := i.low * point.denominator
  let high := i.high * point.denominator
  if i.closed then decide (low ≤ here ∧ here ≤ high) else decide (low < here ∧ here < high)

/-- The least `k` not below the given one with `value < 10 ^ k`, found in `fuel` steps. -/
def magnitudeFrom (i : RoundingInterval) : Nat → Int → Int
  | 0, k => k
  | fuel + 1, k =>
    let power := Ratio.scaled 1 10 k
    if i.value * power.denominator < power.numerator * i.denominator then k
    else magnitudeFrom i fuel (k + 1)

/-- The number of digits before the decimal point of the value, negative for the zeros after it. The
search starts from an estimate by the binary magnitude, which is at most three below. -/
def magnitude (i : RoundingInterval) : Int :=
  let binary := Int.ofNat i.value.log2 - Int.ofNat i.denominator.log2
  i.magnitudeFrom 5 (Int.fdiv ((binary - 1) * 30103) 100000)

/-- The decimal with `n` significant digits nearest to the value that lies in the interval. Of two
decimals equally near, the greater is taken. -/
def withDigits? (i : RoundingInterval) (magnitude : Int) (n : Nat) : Option Digits :=
  let exponent := magnitude - n
  let unit := Ratio.scaled 1 10 exponent
  let numerator := i.value * unit.denominator
  let denominator := i.denominator * unit.numerator
  let d := numerator / denominator
  let upper := i.contains (d + 1) exponent
  if i.contains d exponent && !(upper && decide (denominator ≤ 2 * (numerator % denominator))) then
    some ⟨d, exponent⟩
  else if upper then some ⟨d + 1, exponent⟩
  else none

/-- The decimal with the fewest digits among those with at least `n` and fewer than `n + fuel`. -/
def fewestDigits (i : RoundingInterval) (magnitude : Int) : Nat → Nat → Digits
  | 0, n => ⟨i.value * Nat.pow 10 n / i.denominator, -n⟩
  | fuel + 1, n =>
    match i.withDigits? magnitude n with
    | some d => d
    | none => fewestDigits i magnitude fuel (n + 1)

end RoundingInterval

/-- The shortest decimal of a positive double; seventeen digits always suffice. -/
def Digits.ofDouble (significand : Nat) (exponent : Int) : Digits :=
  let i := RoundingInterval.ofDouble significand exponent
  i.fewestDigits i.magnitude 17 1

/-- `n` in base ten, filled up with zeros on the left to at least `width` digits. -/
def padded (n width : Nat) : String :=
  let digits := Nat.toDigits 10 n
  String.ofList (List.replicate (width - digits.length) '0' ++ digits)

/-- Removes the zeros at the end of a fraction, and the point if nothing is left after it. -/
def trimFraction (fraction : List Char) : List Char :=
  match (fraction.reverse.dropWhile (· = '0')).reverse with
  | [] => []
  | trimmed => '.' :: trimmed

/-- A decimal in positional notation. -/
def Digits.positional (d : Digits) : String :=
  let places := (-d.exponent).toNat
  let all := (padded (d.digits * Nat.pow 10 d.exponent.toNat) (places + 1)).toList
  let whole := all.take (all.length - places)
  let fraction := all.drop (all.length - places)
  String.ofList (whole ++ trimFraction fraction)

/-- The sign of a written number. -/
def signText (negative : Bool) : String := if negative then "-" else ""

/-- Writes a double with the fewest digits that read back as it. -/
def shortest (x : Float) : String :=
  match Binary64.ofFloat x with
  | .notANumber => "NaN"
  | .infinite negative => signText negative ++ "inf"
  | .finite negative 0 _ => signText negative ++ "0"
  | .finite negative significand exponent =>
    signText negative ++ (Digits.ofDouble significand exponent).positional

/-- As `shortest`, with a fractional part written also for a whole number. -/
def shortestWithPoint (x : Float) : String :=
  let text := shortest x
  match Binary64.ofFloat x with
  | .finite .. => if text.toList.contains '.' then text else text ++ ".0"
  | _ => text

end ViewConstraints.Decimal
