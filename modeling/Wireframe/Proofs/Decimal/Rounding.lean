import Mathlib.Algebra.Order.Field.Power
import Mathlib.Data.Rat.Cast.Order
import Mathlib.Tactic.FieldSimp
import Mathlib.Tactic.Linarith
import Mathlib.Tactic.NormNum
import Mathlib.Tactic.Positivity
import Mathlib.Tactic.Ring

/-!
# Rounding to doubles

A number in the interval that belongs to a double is rounded to it. The interval is `Nearest`: half
way to the next double above and below, with its ends iff the mantissa is even.

Rounding shifts the mantissa to the right until it fits and keeps two bits of what is lost, enough
to tell on which side of the middle between two mantissas the number was (`Stands`). Most numbers in
the interval have the exponent of the double from the start. Those right below a power of two are
rounded on a grid twice as fine, up to a mantissa that is one bit too long, and shifted once more
(`shift_carry`).
-/

namespace Wireframe.Double

open Float.Model Float.Model.UnpackedFloat

/-! ### Residual bits -/

/-- Whether a mantissa and its residual bits are what is left of a number, in units of the last
place. -/
inductive Stands : ExtendedMantissa → ℚ → Prop
  | exact {m : ℕ} {u : ℚ} (h : u = m) : Stands ⟨m, false, false⟩ u
  | low {m : ℕ} {u : ℚ} (hlow : m < u) (hhigh : u < m + 1 / 2) : Stands ⟨m, false, true⟩ u
  | middle {m : ℕ} {u : ℚ} (h : u = m + 1 / 2) : Stands ⟨m, true, false⟩ u
  | high {m : ℕ} {u : ℚ} (hlow : m + 1 / 2 < u) (hhigh : u < m + 1) : Stands ⟨m, true, true⟩ u

variable {em : ExtendedMantissa} {m n : ℕ} {e q : ℤ} {u v : ℚ} {accuracy : Accuracy}

theorem Stands.le (h : Stands em u) : em.mantissa ≤ u := by
  cases h <;> dsimp only <;> linarith

theorem Stands.lt (h : Stands em u) : u < em.mantissa + 1 := by
  cases h <;> dsimp only <;> linarith

theorem shiftRightOne_even (n : ℕ) (roundBit stickyBit : Bool) :
    ExtendedMantissa.shiftRightOne ⟨2 * n, roundBit, stickyBit⟩ =
      ⟨n, false, roundBit || stickyBit⟩ := by
  simp [ExtendedMantissa.shiftRightOne]

theorem shiftRightOne_odd (n : ℕ) (roundBit stickyBit : Bool) :
    ExtendedMantissa.shiftRightOne ⟨2 * n + 1, roundBit, stickyBit⟩ =
      ⟨n, true, roundBit || stickyBit⟩ := by
  simp [ExtendedMantissa.shiftRightOne, Nat.mul_add_div]

/-- One shift halves the value that is stood for: the bits keep which half of the gap it is in. -/
theorem Stands.shiftRightOne (h : Stands em u) : Stands em.shiftRightOne (u / 2) := by
  obtain ⟨m, roundBit, stickyBit⟩ := em
  obtain ⟨n, rfl | rfl⟩ := Nat.even_or_odd' m
  · have hcast : ((2 * n : ℕ) : ℚ) = 2 * n := Nat.cast_mul 2 n
    rw [shiftRightOne_even]
    cases h with
    | exact h => exact .exact (by linarith)
    | low hlow hhigh => exact .low (by linarith) (by linarith)
    | middle h => exact .low (by linarith) (by linarith)
    | high hlow hhigh => exact .low (by linarith) (by linarith)
  · have hcast : ((2 * n + 1 : ℕ) : ℚ) = 2 * n + 1 := by push_cast; rfl
    rw [shiftRightOne_odd]
    cases h with
    | exact h => exact .middle (by linarith)
    | low hlow hhigh => exact .high (by linarith) (by linarith)
    | middle h => exact .high (by linarith) (by linarith)
    | high hlow hhigh => exact .high (by linarith) (by linarith)

/-- Shifts halve the value one after another. -/
theorem Stands.shiftRight (h : Stands em u) (n : ℕ) : Stands (em >>> n) (u / 2 ^ n) := by
  induction n with
  | zero => rwa [pow_zero, div_one]
  | succ n ih =>
    rw [pow_succ, ← div_div]
    exact ih.shiftRightOne

/-- Whether a mantissa is the one nearest to a number, the even one where two are. -/
structure Near (m : ℕ) (u : ℚ) : Prop where
  low : m - 1 / 2 ≤ u
  high : u ≤ m + 1 / 2
  low_of_odd : m % 2 = 1 → m - 1 / 2 < u
  high_of_odd : m % 2 = 1 → u < m + 1 / 2

theorem eq_of_lt_add_one {a m : ℕ} (h : (a : ℚ) < m + 1) (h' : (m : ℚ) < a + 1) : a = m := by
  norm_cast at h h'
  omega

/-- What is left of a number rounds to the nearest mantissa. -/
theorem Stands.roundedMantissa (h : Stands em u) (hnear : Near m u) : em.roundedMantissa = m := by
  obtain ⟨hlow, hhigh, hlow', hhigh'⟩ := hnear
  cases h with
  | @exact a _ h => exact eq_of_lt_add_one (a := a) (by linarith) (by linarith)
  | @low a _ h h' => exact eq_of_lt_add_one (a := a) (by linarith) (by linarith)
  | @middle a _ h =>
    have hle : (a : ℚ) ≤ m := by linarith
    have hge : (m : ℚ) ≤ a + 1 := by linarith
    norm_cast at hle hge
    have heven : m % 2 = 0 := by
      by_contra hodd
      have hlt := hlow' (by omega)
      have hlt' := hhigh' (by omega)
      have hle : (a : ℚ) < m := by linarith
      have hge : (m : ℚ) < a + 1 := by linarith
      norm_cast at hle hge
      omega
    show a + a % 2 = m
    omega
  | @high a _ h h' =>
    have hle : (a : ℚ) < m := by linarith
    have hge : (m : ℚ) < a + 2 := by linarith
    norm_cast at hle hge
    show a + 1 = m
    omega

/-! ### Places -/

/-- A mantissa and an exponent as doubles have them. -/
structure Canonical (m : ℕ) (q : ℤ) : Prop where
  pos : 0 < m
  lt : m < 2 ^ 53
  le : -1074 ≤ q
  full : 2 ^ 52 ≤ m ∨ q = -1074
  le_top : q ≤ 971

/-- How far the interval of a double reaches down, in units of the last place: half as far as
elsewhere right above a power of two. -/
def gap (m : ℕ) (q : ℤ) : ℚ := if m = 2 ^ 52 ∧ -1074 < q then 1 / 4 else 1 / 2

/-- Whether a number rounds to `m · 2 ^ q`. -/
structure Nearest (m : ℕ) (q : ℤ) (v : ℚ) : Prop where
  low : (m - gap m q) * 2 ^ q ≤ v
  high : v ≤ (m + 1 / 2) * 2 ^ q
  low_of_odd : m % 2 = 1 → (m - gap m q) * 2 ^ q < v
  high_of_odd : m % 2 = 1 → v < (m + 1 / 2) * 2 ^ q

/-- The exponent to which a mantissa and its exponent are shifted. -/
def target (m : ℕ) (e : ℤ) : ℤ := Format.binary64.targetExponent (totalExponent m e)

/-- The exponent at which 53 bits are left, or the least one. -/
theorem target_eq (m : ℕ) (e : ℤ) : target m e = max (m.log2 + e - 52) (-1074) := by
  have hmin : Format.binary64.minExponent = -1074 := by decide
  rw [target, Format.targetExponent, totalExponent, hmin]
  change max (↑m.log2 + 1 + e - 53) (-1074) = _
  omega

theorem shiftToTargetExponent_eq (m : ℕ) (e : ℤ) (accuracy : Accuracy) :
    shiftToTargetExponent .binary64 m e accuracy =
      (ExtendedMantissa.ofMantissaAndAccuracy m accuracy >>> (target m e - e).toNat,
        e + (target m e - e).toNat) := rfl

/-- The parts of a double need no shift. -/
theorem Canonical.shift (h : Canonical m q) :
    shiftToTargetExponent .binary64 m q .exact = (⟨m, false, false⟩, q) := by
  have hlog : m.log2 < 53 := (Nat.log2_lt h.pos.ne').mpr h.lt
  have htarget : (target m q - q).toNat = 0 := by
    have hle := h.le
    rw [target_eq]
    omega
  rw [shiftToTargetExponent_eq, htarget, Nat.cast_zero, add_zero]
  rfl

/-- A mantissa that rounding has carried to the next power of two is shifted once more. -/
theorem shift_carry (h : -1074 < q) :
    shiftToTargetExponent .binary64 (2 ^ 53) (q - 1) .exact = (⟨2 ^ 52, false, false⟩, q) := by
  have htarget : (target (2 ^ 53) (q - 1) - (q - 1)).toNat = 1 := by
    rw [target_eq, Nat.log2_two_pow]
    omega
  rw [shiftToTargetExponent_eq, htarget, Nat.cast_one, sub_add_cancel]
  rfl

/-! ### Rounding -/

theorem gap_le (m : ℕ) (q : ℤ) : gap m q ≤ 1 / 2 := by
  rw [gap]
  split <;> norm_num

/-- In units of the last place, the nearest double is within half a unit. -/
theorem Nearest.near (h : Nearest m q v) : Near m (v / 2 ^ q) := by
  have hpos : (0 : ℚ) < 2 ^ q := by positivity
  have hgap := gap_le m q
  have hlow := (le_div_iff₀ hpos).mpr h.low
  refine ⟨by linarith, (div_le_iff₀ hpos).mpr h.high, fun hodd => ?_, fun hodd => ?_⟩
  · have hlt := (lt_div_iff₀ hpos).mpr (h.low_of_odd hodd)
    linarith
  · exact (div_lt_iff₀ hpos).mpr (h.high_of_odd hodd)

/-- The leading bit of the mantissa bounds the value from below. -/
theorem two_zpow_log2_le (hn : 0 < n) (h : (n : ℚ) ≤ v / 2 ^ e) : (2 : ℚ) ^ (n.log2 + e) ≤ v := by
  have hpos : (0 : ℚ) < 2 ^ e := by positivity
  have hle : 2 ^ n.log2 ≤ n := Nat.log2_self_le hn.ne'
  have hle' : (2 : ℚ) ^ n.log2 ≤ n := by exact_mod_cast hle
  rw [zpow_add₀ two_ne_zero, zpow_natCast, ← le_div_iff₀ hpos]
  exact hle'.trans h

/-- The leading bit of the mantissa bounds the value from above. -/
theorem lt_two_zpow_log2 (h : v / 2 ^ e < n + 1) : v < (2 : ℚ) ^ (n.log2 + 1 + e) := by
  have hpos : (0 : ℚ) < 2 ^ e := by positivity
  have hlt : n + 1 ≤ 2 ^ (n.log2 + 1) := Nat.lt_log2_self
  have hlt' : (n : ℚ) + 1 ≤ 2 ^ (n.log2 + 1) := by exact_mod_cast hlt
  rw [zpow_add₀ two_ne_zero, ← div_lt_iff₀ hpos]
  exact h.trans_le (by exact_mod_cast hlt')

/-- A value next to a double is below the next power of two. -/
theorem Nearest.lt_two_zpow (hc : Canonical m q) (h : Nearest m q v) : v < (2 : ℚ) ^ (53 + q) := by
  have hpos : (0 : ℚ) < 2 ^ q := by positivity
  have hm : m + 1 ≤ 2 ^ 53 := hc.lt
  have hm' : (m : ℚ) + 1 ≤ 2 ^ 53 := by exact_mod_cast hm
  rw [zpow_add₀ two_ne_zero]
  calc v ≤ (m + 1 / 2) * 2 ^ q := h.high
    _ < 2 ^ (53 : ℤ) * 2 ^ q := by
      gcongr
      norm_num at hm' ⊢
      linarith

/-- A value next to a double is above half of its power of two. -/
theorem Nearest.two_zpow_lt (hc : Canonical m q) (hq : -1074 < q) (h : Nearest m q v) :
    (2 : ℚ) ^ (51 + q) < v := by
  have hm : 2 ^ 52 ≤ m := hc.full.resolve_right hq.ne'
  have hm' : (2 : ℚ) ^ 52 ≤ m := by exact_mod_cast hm
  have hgap := gap_le m q
  rw [zpow_add₀ two_ne_zero]
  calc (2 : ℚ) ^ (51 : ℤ) * 2 ^ q < (m - gap m q) * 2 ^ q := by
        gcongr
        linarith [show (2 : ℚ) ^ (51 : ℤ) + 1 / 2 < 2 ^ 52 by norm_num]
    _ ≤ v := h.low

/-- Below its power of two only the interval of the power itself reaches. -/
theorem Nearest.eq_of_lt (hc : Canonical m q) (hq : -1074 < q) (h : Nearest m q v)
    (hv : v < 2 ^ (52 + q)) : m = 2 ^ 52 := by
  have hm : 2 ^ 52 ≤ m := hc.full.resolve_right hq.ne'
  have hgap := gap_le m q
  have hlt : (m - gap m q) * 2 ^ q < 2 ^ (52 : ℤ) * 2 ^ q := by
    rw [← zpow_add₀ two_ne_zero]
    exact h.low.trans_lt hv
  have hlt' : m - gap m q < 2 ^ (52 : ℤ) := lt_of_mul_lt_mul_right hlt (by positivity)
  have hle : (m : ℚ) < 2 ^ 52 + 1 := by
    rw [← zpow_natCast]
    push_cast
    linarith
  have hle' : m < 2 ^ 52 + 1 := by exact_mod_cast hle
  omega

/-- Below a power of two the places are half as wide, and the value is still next to it. -/
theorem Nearest.near_of_lt (hq : -1074 < q) (h : Nearest (2 ^ 52) q v) (hv : v < 2 ^ (52 + q)) :
    Near (2 ^ 53) (v / 2 ^ (q - 1)) := by
  have hpos : (0 : ℚ) < 2 ^ (q - 1) := by positivity
  have hgap : gap (2 ^ 52) q = 1 / 4 := if_pos ⟨rfl, hq⟩
  have hhigh : v / 2 ^ (q - 1) < 2 ^ 53 := by
    have hexponent : ((53 : ℕ) : ℤ) + (q - 1) = 52 + q := by omega
    rwa [div_lt_iff₀ hpos, ← zpow_natCast, ← zpow_add₀ two_ne_zero, hexponent]
  have hlow : (2 : ℚ) ^ 53 - 1 / 2 ≤ v / 2 ^ (q - 1) := by
    rw [le_div_iff₀ hpos]
    have hle := h.low
    have htwo : (2 : ℚ) ^ q = 2 ^ (q - 1) * 2 := by
      rw [← zpow_add_one₀ two_ne_zero, sub_add_cancel]
    rw [hgap, htwo] at hle
    push_cast at hle
    linarith
  refine ⟨by push_cast; linarith, by push_cast; linarith, ?_, ?_⟩ <;> exact fun hodd => by omega

/-- What was lost before changes the bits behind the mantissa only. -/
@[simp]
theorem mantissa_ofMantissaAndAccuracy (m : ℕ) (accuracy : Accuracy) :
    (ExtendedMantissa.ofMantissaAndAccuracy m accuracy).mantissa = m := by
  cases accuracy with
  | exact => rfl
  | inexact side => cases side <;> rfl

/-- The exponent to which a number in the interval of a double is shifted is that of the double, or
the one before for a number below the power of two that the double is. -/
theorem Nearest.exponent (hc : Canonical m q) (h : Nearest m q v)
    (hstands : Stands (.ofMantissaAndAccuracy n accuracy) (v / 2 ^ e)) (he : e ≤ target n e) :
    target n e = q ∨ target n e = q - 1 ∧ -1074 < q ∧ v < 2 ^ (52 + q) := by
  have hlow : (n : ℚ) ≤ v / 2 ^ e := by simpa using hstands.le
  have hhigh : v / 2 ^ e < n + 1 := by simpa using hstands.lt
  have hq := hc.le
  have hle : target n e ≤ q := by
    rcases Nat.eq_zero_or_pos n with rfl | hn
    · rw [target_eq, Nat.log2_zero] at he ⊢
      omega
    · have hpow := (two_zpow_log2_le hn hlow).trans_lt (h.lt_two_zpow hc)
      rw [zpow_lt_zpow_iff_right₀ one_lt_two] at hpow
      rw [target_eq]
      omega
  rcases hq.eq_or_lt with rfl | hq
  · exact .inl (le_antisymm hle (target_eq n e ▸ le_max_right ..))
  · have hpow := (h.two_zpow_lt hc hq).trans (lt_two_zpow_log2 hhigh)
    rw [zpow_lt_zpow_iff_right₀ one_lt_two] at hpow
    by_cases heq : target n e = q
    · exact .inl heq
    · rw [target_eq] at hle heq ⊢
      have hexponent : (n.log2 + 1 + e : ℤ) = 52 + q := by omega
      exact .inr ⟨by omega, hq, hexponent ▸ lt_two_zpow_log2 hhigh⟩

/-- Rounding is a shift to the target, rounding there, and a shift for the carry. -/
theorem roundWithAccuracy_of_shift {sign : Sign} {em : ExtendedMantissa} {e' : ℤ}
    (hfirst : shiftToTargetExponent .binary64 n e accuracy = (em, e'))
    (hsecond : shiftToTargetExponent .binary64 em.roundedMantissa e' .exact =
      (⟨m, false, false⟩, q)) (hpos : 0 < m) :
    roundWithAccuracy .binary64 sign n e accuracy = .finite sign m q hpos := by
  rw [roundWithAccuracy, hfirst]
  dsimp only
  rw [dif_neg (by rw [hsecond]; exact hpos.ne')]
  congr 1 <;> rw [hsecond]

/-- After the first shift the mantissa stands for the value in units of the target. -/
theorem Stands.shiftToTargetExponent
    (h : Stands (.ofMantissaAndAccuracy n accuracy) (v / 2 ^ e)) (he : e ≤ target n e) :
    ∃ em, Stands em (v / 2 ^ target n e) ∧
      shiftToTargetExponent .binary64 n e accuracy = (em, target n e) := by
  have hexponent : e + (target n e - e).toNat = target n e := by omega
  refine ⟨_, ?_, by rw [shiftToTargetExponent_eq, hexponent]⟩
  have hshifted := h.shiftRight (target n e - e).toNat
  rwa [div_div, ← zpow_natCast, ← zpow_add₀ two_ne_zero, hexponent] at hshifted

/-- A number in the interval of a double rounds to it. -/
theorem Nearest.roundWithAccuracy (hc : Canonical m q) (h : Nearest m q v) (sign : Sign)
    (hstands : Stands (.ofMantissaAndAccuracy n accuracy) (v / 2 ^ e)) (he : e ≤ target n e) :
    roundWithAccuracy .binary64 sign n e accuracy = .finite sign m q hc.pos := by
  obtain ⟨em, hem, hfirst⟩ := hstands.shiftToTargetExponent he
  rcases h.exponent hc hstands he with htarget | ⟨htarget, hq, hlt⟩
  · rw [htarget] at hem hfirst
    have hrounded := hem.roundedMantissa h.near
    exact roundWithAccuracy_of_shift hfirst (hrounded ▸ hc.shift) hc.pos
  · obtain rfl := h.eq_of_lt hc hq hlt
    rw [htarget] at hem hfirst
    have hrounded := hem.roundedMantissa (h.near_of_lt hq hlt)
    exact roundWithAccuracy_of_shift hfirst (hrounded ▸ shift_carry hq) hc.pos

end Wireframe.Double
