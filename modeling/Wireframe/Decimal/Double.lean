import Wireframe.Decimal.Shortest

/-!
# Doubles and numerals

From a double to the numeral that stands for it, and from a numeral to the nearest double.
-/

namespace Wireframe.Numeral

/-- The numeral that stands for a double. -/
def ofDouble (x : Float) : Numeral := Decimal.ofBits x.toBits

/-- The place of the leading digit: a positive decimal fraction is below ten to this power, and not
below the power before. -/
def magnitude (coefficient : Nat) (exponent : Int) : Int := (digits coefficient).length + exponent

/-- The double nearest to a positive or zero decimal fraction. What is far out of the range of
doubles is decided by its magnitude alone. -/
def nearestDouble (coefficient : Nat) (exponent : Int) : Float :=
  if coefficient = 0 || magnitude coefficient exponent < -400 then 0.0
  else if 400 < magnitude coefficient exponent then 1.0 / 0.0
  else Float.ofScientific coefficient (exponent < 0) exponent.natAbs

/-- The double nearest to a numeral. -/
def toDouble : Numeral → Float
  | finite negative coefficient exponent =>
    if negative then -nearestDouble coefficient exponent else nearestDouble coefficient exponent
  | infinite negative => if negative then -(1.0 / 0.0) else 1.0 / 0.0
  | nan => 0.0 / 0.0

/-- The least number that rounds to infinity: half way from the largest double to the next power of
two. -/
def overflowBound : Nat := twoTo 1024 - twoTo 970

/-- Whether a decimal fraction is too large for a double. -/
def overflows : Numeral → Bool
  | finite _ coefficient exponent =>
    coefficient != 0 &&
      (400 < magnitude coefficient exponent ||
        (-400 ≤ magnitude coefficient exponent &&
          overflowBound * tenTo (-exponent).toNat ≤ coefficient * tenTo exponent.toNat))
  | _ => false

end Wireframe.Numeral
