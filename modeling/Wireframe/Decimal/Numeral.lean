import Wireframe.Decimal.Power

/-!
# Numerals

A numeral is a number as it is written down: a sign, and either a decimal fraction, infinity, or no
number at all. A decimal fraction is a coefficient with a power of ten; in its normal form the
coefficient does not end in a zero. Zero has a sign, too.

Numerals are written positionally whatever their size: no exponent, and a point only where digits
follow it.
-/

namespace Wireframe

/-- A number as it is written in decimal. -/
inductive Numeral
  /-- `coefficient · 10 ^ exponent`, with a sign. -/
  | finite (negative : Bool) (coefficient : Nat) (exponent : Int)
  /-- An infinity. -/
  | infinite (negative : Bool)
  /-- Not a number. -/
  | nan
  deriving DecidableEq, Repr

namespace Numeral

/-- Moves the zeros at the end of a coefficient into the exponent, as many as `limit` at most. -/
def stripZeros : Nat → Nat → Int → Nat × Int
  | 0, coefficient, exponent => (coefficient, exponent)
  | limit + 1, coefficient, exponent =>
    if coefficient % 10 = 0 then stripZeros limit (coefficient / 10) (exponent + 1)
    else (coefficient, exponent)

/-- The decimal digits of a natural number, most significant first. -/
def digits (n : Nat) : List Char := Nat.toDigits 10 n

/-- The normal form of a decimal fraction: the coefficient does not end in a zero, and zero has
exponent zero. -/
def decimal (negative : Bool) (coefficient : Nat) (exponent : Int) : Numeral :=
  if coefficient = 0 then finite negative 0 0
  else
    let stripped := stripZeros (digits coefficient).length coefficient exponent
    finite negative stripped.1 stripped.2

/-- A whole number. -/
def ofInt (n : Int) : Numeral := decimal (n < 0) n.natAbs 0

/-- Puts a point in front of the last `places` digits, with zeros before it where there are too
few. -/
def withPoint (places : Nat) (ds : List Char) : List Char :=
  let padded := List.replicate (places + 1 - ds.length) '0' ++ ds
  let whole := padded.length - places
  padded.take whole ++ '.' :: padded.drop whole

/-- A decimal fraction without its sign, written positionally. -/
def positional (coefficient : Nat) (exponent : Int) : List Char :=
  if 0 ≤ exponent then digits coefficient ++ List.replicate exponent.toNat '0'
  else withPoint (-exponent).toNat (digits coefficient)

/-- Writes a sign in front, if there is one. -/
def signed (negative : Bool) (cs : List Char) : List Char := if negative then '-' :: cs else cs

/-- A numeral as text. -/
def text : Numeral → List Char
  | finite negative coefficient exponent => signed negative (positional coefficient exponent)
  | infinite negative => signed negative "inf".toList
  | nan => "NaN".toList

/-- Whether a numeral in normal form is a whole number. -/
def isWhole : Numeral → Bool
  | finite _ _ exponent => 0 ≤ exponent
  | _ => false

/-- The value of a run of decimal digits. -/
def valueOfDigits (ds : List Char) : Nat :=
  ds.foldl (fun value d => 10 * value + (d.toNat - '0'.toNat)) 0

/-! ### Normal forms -/

theorem stripZeros_value (limit coefficient : Nat) (exponent : Int) :
    ∃ k : Nat, (stripZeros limit coefficient exponent).2 = exponent + k ∧
      (stripZeros limit coefficient exponent).1 * tenTo k = coefficient := by
  induction limit generalizing coefficient exponent with
  | zero => exact ⟨0, by simp [stripZeros], by simp [stripZeros, tenTo_zero]⟩
  | succ limit ih =>
    rw [stripZeros]
    split
    · next h =>
      obtain ⟨k, hk, hv⟩ := ih (coefficient / 10) (exponent + 1)
      refine ⟨k + 1, by omega, ?_⟩
      rw [tenTo_succ, ← Nat.mul_assoc, hv]
      omega
    · exact ⟨0, by simp, by simp [tenTo_zero]⟩

end Numeral

end Wireframe
