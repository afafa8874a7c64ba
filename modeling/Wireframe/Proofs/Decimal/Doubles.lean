import Wireframe.Proofs.Decimal.Nearest
import Wireframe.Proofs.Decimal.Shortest

/-!
# Numerals for doubles read back

The numeral that stands for a double is read as the double (`Double.toDouble_ofDouble`), it is never
too large to be read (`Double.overflows_ofDouble`), and it is a number if the double is one
(`Double.ofDouble_ne_nan`).
-/

namespace Wireframe.Double

open Decimal Float.Model Float.Model.UnpackedFloat

variable {m c d : ℕ} {q e p : ℤ} {sign : Sign} {x : Float}

/-- A decimal fraction that is not zero keeps its value in its normal form. -/
theorem exists_decimal_eq (negative : Bool) (hpos : 0 < d) (p : ℤ) :
    ∃ c e, Numeral.decimal negative d p = .finite negative c e ∧ 0 < c ∧
      (c * 10 ^ e : ℚ) = d * 10 ^ p := by
  obtain ⟨k, hexponent, hvalue⟩ := Numeral.stripZeros_value (Numeral.digits d).length d p
  refine ⟨_, _, by rw [Numeral.decimal, if_neg hpos.ne'], ?_, ?_⟩
  · by_contra hzero
    rw [Nat.eq_zero_of_not_pos hzero, Nat.zero_mul] at hvalue
    omega
  · have hcast := congrArg (Nat.cast : ℕ → ℚ) hvalue
    rw [Nat.cast_mul, Rounding.cast_tenTo] at hcast
    rw [hexponent, ← hcast, zpow_add₀ (by norm_num), zpow_natCast]
    ring

/-- The numeral for a double other than zero: a decimal fraction in its interval. -/
theorem exists_numeral_eq {h : 0 < m} (hx : x.toModel.unpack = .finite sign m q h) :
    ∃ c e, Numeral.ofDouble x = .finite (isNegative sign) c e ∧ 0 < c ∧
      Nearest m q (c * 10 ^ e) := by
  have hc := canonical_of_unpack hx
  have hnearest := Rounding.nearest_shortest hc.pos q
  have hpos : 0 < (Rounding.interval m q).shortest.1 := by
    by_contra hzero
    have hle := hnearest.le_of_canonical hc
    rw [Nat.eq_zero_of_not_pos hzero, Nat.cast_zero, zero_mul] at hle
    exact absurd hle (not_le.mpr (by positivity))
  obtain ⟨c, e, heq, hcpos, hvalue⟩ :=
    exists_decimal_eq (isNegative sign) hpos (Rounding.interval m q).shortest.2
  refine ⟨c, e, ?_, hcpos, hvalue ▸ hnearest⟩
  rw [ofDouble_eq, hx, numeral]
  exact heq

/-- The numeral for a double is read as the double. -/
theorem toDouble_ofDouble (x : Float) : (Numeral.ofDouble x).toDouble = x := by
  cases hx : x.toModel.unpack with
  | infinity sign =>
    rw [ofDouble_eq, eq_pack x, hx]
    cases sign <;> decide +kernel
  | notANumber =>
    rw [ofDouble_eq, eq_pack x, hx]
    decide +kernel
  | zero sign =>
    rw [ofDouble_eq, eq_pack x, hx]
    cases sign <;> decide +kernel
  | finite sign m q h =>
    have hc := canonical_of_unpack hx
    obtain ⟨c, e, heq, hpos, hnearest⟩ := exists_numeral_eq hx
    rw [heq, Numeral.toDouble, hnearest.nearestDouble hc hpos, eq_double hx]
    cases sign with
    | positive => rfl
    | negative => exact neg_double hc

/-! ### Size -/

theorem Nearest.lt_top (hc : Canonical m q) {v : ℚ} (h : Nearest m q v) :
    v < (2 ^ 53 - 1 / 2) * 2 ^ (971 : ℤ) := by
  have hle : (2 : ℚ) ^ q ≤ 2 ^ (971 : ℤ) := zpow_le_zpow_right₀ one_le_two hc.le_top
  have hpos : (0 : ℚ) < 2 ^ (971 : ℤ) := by positivity
  generalize (2 : ℚ) ^ (971 : ℤ) = top at hle hpos ⊢
  by_cases htop : m = 2 ^ 53 - 1
  · have hm : (m : ℚ) + 1 / 2 = 2 ^ 53 - 1 / 2 := by
      rw [htop]
      norm_num
    rw [← hm]
    exact (h.high_of_odd (by omega)).trans_le (by gcongr)
  · have hlt : m + 1 < 2 ^ 53 := by
      have := hc.lt
      omega
    have hlt' : (m : ℚ) + 1 < 2 ^ 53 := by exact_mod_cast hlt
    calc v ≤ (m + 1 / 2) * 2 ^ q := h.high
      _ ≤ (m + 1 / 2) * top := by gcongr
      _ < (2 ^ 53 - 1 / 2) * top := by
        gcongr
        linarith

theorem twoTo_le {j k : ℕ} (h : j ≤ k) : twoTo j ≤ twoTo k := Nat.pow_le_pow_right (by decide) h

theorem cast_overflowBound : (Numeral.overflowBound : ℚ) = (2 ^ 53 - 1 / 2) * 2 ^ (971 : ℤ) := by
  have hle : twoTo 970 ≤ twoTo 1024 := twoTo_le (by decide)
  have hzpow (k : ℕ) : (twoTo k : ℚ) = 2 ^ (k : ℤ) := by rw [Rounding.cast_twoTo, zpow_natCast]
  rw [Numeral.overflowBound, Nat.cast_sub hle, hzpow, hzpow]
  have hlow : ((970 : ℕ) : ℤ) = -1 + 971 := by norm_num
  have hhigh : ((1024 : ℕ) : ℤ) = 53 + 971 := by norm_num
  rw [hlow, hhigh, zpow_add₀ two_ne_zero, zpow_add₀ two_ne_zero]
  generalize (2 : ℚ) ^ (971 : ℤ) = top
  norm_num
  ring

/-- The numeral for a double is not too large for a double. -/
theorem overflows_ofDouble (x : Float) : (Numeral.ofDouble x).overflows = false := by
  cases hx : x.toModel.unpack with
  | infinity sign => rw [ofDouble_eq, hx]; rfl
  | notANumber => rw [ofDouble_eq, hx]; rfl
  | zero sign => rw [ofDouble_eq, hx]; rfl
  | finite sign m q h =>
    have hc := canonical_of_unpack hx
    obtain ⟨c, e, heq, hpos, hnearest⟩ := exists_numeral_eq hx
    have hmagnitude := hnearest.magnitude_le hc hpos
    have hlt : c * tenTo e.toNat < Numeral.overflowBound * tenTo (-e).toNat := by
      have htop := hnearest.lt_top hc
      rw [← cast_overflowBound] at htop
      rw [← Nat.cast_lt (α := ℚ), Nat.cast_mul, Nat.cast_mul, Rounding.cast_tenTo,
        Rounding.cast_tenTo, Rounding.pow_toNat (by norm_num), ← mul_assoc]
      gcongr
    rw [heq, Numeral.overflows, decide_eq_false (by omega), decide_eq_false (not_le.mpr hlt),
      Bool.and_false, Bool.or_false, Bool.and_false]

/-- Only the double that is no number has the numeral that is none. -/
theorem ofDouble_ne_nan (h : x.isNaN = false) : Numeral.ofDouble x ≠ .nan := by
  rw [ofDouble_eq]
  cases hx : x.toModel.unpack with
  | infinity sign => exact Numeral.noConfusion
  | notANumber =>
    rw [Float.isNaN, Float.Model.isNaN, hx] at h
    cases h
  | zero sign => exact Numeral.noConfusion
  | finite sign m q hm =>
    obtain ⟨c, e, heq, -⟩ := exists_numeral_eq hx
    rw [← hx, ← ofDouble_eq, heq]
    exact Numeral.noConfusion

end Wireframe.Double
