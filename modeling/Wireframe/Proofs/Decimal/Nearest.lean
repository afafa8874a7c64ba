import Wireframe.Proofs.Decimal.Numerals
import Wireframe.Proofs.Decimal.Packing

/-!
# Decimal fractions read as doubles

A decimal fraction in the interval of a double is read as the double (`Nearest.nearestDouble`). It
is a product or a quotient of a whole number and a power of ten, and these are rounded once
(`Nearest.mul`, `Nearest.div`). Where both are doubles themselves, the product or quotient of the
doubles is taken, which is the same (`Nearest.float_ofScientific`).
-/

namespace Wireframe.Double

open Float.Model Float.Model.UnpackedFloat

variable {m n m₁ m₂ : ℕ} {e q e₁ e₂ : ℤ} {v : ℚ} {sign₁ sign₂ : Sign} {h₁ : 0 < m₁} {h₂ : 0 < m₂}

/-! ### Products and quotients -/

/-- A mantissa of at least 53 bits is not shifted to the left. -/
theorem le_target (h : 2 ^ 52 ≤ n) : e ≤ target n e := by
  have hlog : 52 ≤ n.log2 := (Nat.le_log2 (by omega)).mpr h
  rw [target_eq]
  omega

/-- A product in the interval of a double is that double. -/
theorem Nearest.mul (hc : Canonical m q) (h : Nearest m q (m₁ * 2 ^ e₁ * (m₂ * 2 ^ e₂)))
    (hfull : 2 ^ 52 ≤ m₁ * m₂) :
    UnpackedFloat.mul .binary64 (.finite sign₁ m₁ e₁ h₁) (.finite sign₂ m₂ e₂ h₂) =
      .finite (sign₁ * sign₂) m q hc.pos := by
  refine h.roundWithAccuracy hc _ (.exact ?_) (le_target hfull)
  rw [zpow_add₀ two_ne_zero]
  field_simp
  push_cast
  ring

/-- A quotient and its remainder stand for the fraction. -/
theorem stands_fraction (a : ℕ) {b : ℕ} (hb : 0 < b) :
    Stands (.ofMantissaAndAccuracy (a / b) (accuracyOfFraction (a % b) b)) ((a : ℚ) / b) := by
  have hpos : (0 : ℚ) < b := by exact_mod_cast hb
  have hvalue : (a : ℚ) / b = (a / b : ℕ) + (a % b : ℕ) / b := by
    rw [eq_comm, eq_div_iff hpos.ne', add_mul, div_mul_cancel₀ _ hpos.ne']
    exact_mod_cast Nat.div_add_mod' a b
  have hlt : a % b < b := Nat.mod_lt a hb
  rw [hvalue]
  generalize a / b = k, a % b = r at hlt ⊢
  rw [accuracyOfFraction]
  split
  · next hr =>
    refine .exact ?_
    rw [hr, Nat.cast_zero, zero_div, add_zero]
  · next hr =>
    have hr' : (0 : ℚ) < r := by exact_mod_cast Nat.pos_of_ne_zero hr
    -- what is left over is less than half of the divisor, half of it, or more
    rcases lt_trichotomy (2 * r) b with h | h | h
    · have h' : (2 * r : ℚ) < b := by exact_mod_cast h
      rw [Nat.compare_eq_lt.mpr h]
      refine .low ?_ ?_
      · have := div_pos hr' hpos
        linarith
      · rw [add_lt_add_iff_left, div_lt_iff₀ hpos]
        linarith
    · have h' : (2 * r : ℚ) = b := by exact_mod_cast h
      rw [Nat.compare_eq_eq.mpr h]
      refine .middle ?_
      rw [add_right_inj, div_eq_iff hpos.ne']
      linarith
    · have h' : (b : ℚ) < 2 * r := by exact_mod_cast h
      have hlt' : (r : ℚ) < b := by exact_mod_cast hlt
      rw [Nat.compare_eq_gt.mpr h]
      refine .high ?_ ?_
      · rw [add_lt_add_iff_left, lt_div_iff₀ hpos]
        linarith
      · rw [add_lt_add_iff_left, div_lt_one hpos]
        exact hlt'

/-- The leading bits bound a quotient from below. -/
theorem two_zpow_lt_quotient (h₁ : 0 < m₁) (h₂ : 0 < m₂) (e₁ e₂ : ℤ) :
    (2 : ℚ) ^ (totalExponent m₁ e₁ - totalExponent m₂ e₂ - 1) < m₁ * 2 ^ e₁ / (m₂ * 2 ^ e₂) := by
  have hpos : (0 : ℚ) < m₂ * 2 ^ e₂ := by positivity
  have hle : (2 : ℚ) ^ (m₁.log2 + e₁) ≤ m₁ * 2 ^ e₁ :=
    two_zpow_log2_le h₁ (mul_div_cancel_right₀ _ (by positivity)).ge
  have hlt : m₂ * 2 ^ e₂ < (2 : ℚ) ^ (m₂.log2 + 1 + e₂) :=
    lt_two_zpow_log2 ((mul_div_cancel_right₀ _ (by positivity)).trans_lt (lt_add_one _))
  rw [lt_div_iff₀ hpos]
  calc (2 : ℚ) ^ (totalExponent m₁ e₁ - totalExponent m₂ e₂ - 1) * (m₂ * 2 ^ e₂)
      < 2 ^ (totalExponent m₁ e₁ - totalExponent m₂ e₂ - 1) * 2 ^ (m₂.log2 + 1 + e₂) := by gcongr
    _ = 2 ^ (m₁.log2 + e₁) := by
      rw [← zpow_add₀ two_ne_zero, totalExponent, totalExponent]
      congr 1
      omega
    _ ≤ m₁ * 2 ^ e₁ := hle

/-- The exponent of a quotient leaves enough places for its mantissa. -/
theorem le_target_quotient (h₁ : 0 < m₁) (h₂ : 0 < m₂)
    (he : e ≤ Format.binary64.targetExponent (totalExponent m₁ e₁ - totalExponent m₂ e₂))
    (hn : m₁ * 2 ^ e₁ / (m₂ * 2 ^ e₂) / 2 ^ e < (n + 1 : ℚ)) : e ≤ target n e := by
  have hpow := (two_zpow_lt_quotient h₁ h₂ e₁ e₂).trans (lt_two_zpow_log2 hn)
  rw [zpow_lt_zpow_iff_right₀ one_lt_two] at hpow
  refine he.trans (max_le_max ?_ le_rfl)
  have htotal : totalExponent n e = n.log2 + 1 + e := rfl
  omega

/-- A quotient in the interval of a double is that double. -/
theorem Nearest.div (hc : Canonical m q) (h : Nearest m q (m₁ * 2 ^ e₁ / (m₂ * 2 ^ e₂))) :
    UnpackedFloat.div .binary64 (.finite sign₁ m₁ e₁ h₁) (.finite sign₂ m₂ e₂ h₂) =
      .finite (sign₁ / sign₂) m q hc.pos := by
  rw [UnpackedFloat.div, divCore]
  generalize he : min (e₁ - e₂) (Format.binary64.targetExponent
    (totalExponent m₁ e₁ - totalExponent m₂ e₂)) = e
  have hshift : e + (e₁ - e₂ - e).toNat = e₁ - e₂ := by omega
  have hvalue : ((m₁ <<< (e₁ - e₂ - e).toNat : ℕ) / m₂ : ℚ) =
      m₁ * 2 ^ e₁ / (m₂ * 2 ^ e₂) / 2 ^ e := by
    generalize (e₁ - e₂ - e).toNat = shift at hshift ⊢
    obtain rfl : e₁ = e + shift + e₂ := by omega
    rw [Nat.shiftLeft_eq, zpow_add₀ two_ne_zero, zpow_add₀ two_ne_zero, zpow_natCast]
    push_cast
    field_simp
  have hstands := stands_fraction (m₁ <<< (e₁ - e₂ - e).toNat) h₂
  rw [hvalue] at hstands
  have hlt := hstands.lt
  rw [mantissa_ofMantissaAndAccuracy] at hlt
  exact h.roundWithAccuracy hc _ hstands
    (le_target_quotient h₁ h₂ (he ▸ min_le_right ..) hlt)

/-! ### Decimal fractions -/

/-- A decimal fraction in the interval of a double is read as that double. -/
theorem Nearest.ofScientific {c : ℕ} (hc : Canonical m q) (hpos : 0 < c)
    (h : Nearest m q (c * 10 ^ e)) (hlow : -(2048 + c.log2 : ℤ) ≤ e) (hhigh : e ≤ 2048) :
    UnpackedFloat.ofScientific .binary64 c e = .finite .positive m q hc.pos := by
  have hbound : (2 : ℤ) ^ Format.binary64.exponentBits = 2048 := by decide
  have hbits : Format.binary64.mantissaBits = 53 := rfl
  -- the exponent is within the bounds beyond which a decimal counts as zero or infinite
  rw [UnpackedFloat.ofScientific, dif_neg hpos.ne', if_neg (by omega), if_neg (by omega)]
  split
  · next he =>
    obtain ⟨k, rfl⟩ := Int.eq_ofNat_of_zero_le he
    refine Nearest.mul hc ?_ ?_
    · convert h using 1
      rw [hbits, Int.toNat_natCast, Nat.shiftLeft_eq, zpow_neg, zpow_natCast, zpow_natCast,
        zpow_zero]
      push_cast
      field_simp
      norm_num
    · rw [hbits, Int.toNat_natCast, Nat.shiftLeft_eq]
      have hten : 0 < 10 ^ k := by positivity
      nlinarith
  · next he =>
    obtain ⟨k, hk⟩ := Int.eq_ofNat_of_zero_le (neg_nonneg.mpr (not_le.mp he).le)
    obtain rfl : e = -k := by omega
    refine Nearest.div hc ?_
    convert h using 1
    rw [neg_neg, Int.toNat_natCast, zpow_neg, zpow_natCast, zpow_zero, mul_one, mul_one,
      div_eq_mul_inv]
    push_cast
    rfl

/-! ### Whole numbers -/

/-- The mantissa of a whole number that has no more places than a mantissa. -/
def scaled (n : ℕ) : ℕ := n * 2 ^ 52 / 2 ^ n.log2

/-- A number that is scaled to 53 bits has its leading bit there. -/
theorem le_scaled (hpos : 0 < n) : 2 ^ 52 ≤ scaled n := by
  have hle : 2 ^ n.log2 ≤ n := Nat.log2_self_le hpos.ne'
  rw [scaled, Nat.le_div_iff_mul_le (by positivity), Nat.mul_comm]
  exact Nat.mul_le_mul_right _ hle

/-- A whole number scaled to 53 bits gives the parts of a double. -/
theorem canonical_scaled (hpos : 0 < n) (htop : n.log2 ≤ 1023) :
    Canonical (scaled n) (n.log2 - 52) := by
  have hlt : n < 2 ^ (n.log2 + 1) := Nat.lt_log2_self
  have hfull : 2 ^ 52 ≤ scaled n := le_scaled hpos
  refine ⟨by omega, ?_, by omega, .inl hfull, by omega⟩
  rw [scaled, Nat.div_lt_iff_lt_mul (by positivity)]
  rw [pow_succ] at hlt
  omega

/-- Nothing is lost by scaling a number that has 53 bits at most. -/
theorem scaled_mul (h : 2 ^ n.log2 ∣ n * 2 ^ 52) : (scaled n : ℚ) * 2 ^ (n.log2 - 52 : ℤ) = n := by
  have hmul : scaled n * 2 ^ n.log2 = n * 2 ^ 52 := Nat.div_mul_cancel h
  have hmul' : (scaled n : ℚ) * 2 ^ n.log2 = n * 2 ^ 52 := by exact_mod_cast hmul
  rw [zpow_sub₀ two_ne_zero, zpow_natCast, mul_div_assoc', hmul']
  exact mul_div_cancel_right₀ _ (by positivity)

theorem Canonical.roundWithAccuracy (hc : Canonical m q) (sign : Sign) :
    UnpackedFloat.roundWithAccuracy .binary64 sign m q .exact = .finite sign m q hc.pos :=
  roundWithAccuracy_of_shift hc.shift hc.shift hc.pos

/-- A whole number with no more places than a mantissa is a double. -/
theorem toFloat_toUInt64 (hpos : 0 < n) (hlog : n.log2 ≤ 52) :
    n.toUInt64.toFloat = double .positive (canonical_scaled hpos (hlog.trans (by decide))) := by
  have hlt : n < 2 ^ 53 := (Nat.log2_lt hpos.ne').mp (by omega)
  have hcompare : compare (n : ℤ) 0 = .gt := by
    rw [compare_gt_iff_gt]
    omega
  have htoNat : n.toUInt64.toNat = n := by
    rw [UInt64.toNat_ofNat']
    omega
  have htarget : Format.binary64.targetExponent (totalExponent n 0) = n.log2 - 52 := by
    change target n 0 = _
    rw [target_eq]
    omega
  -- shifting to the left fills the mantissa and loses nothing
  have hmantissa : n <<< (52 - n.log2) = scaled n := by
    have hsplit : 2 ^ 52 = 2 ^ (52 - n.log2) * 2 ^ n.log2 := by
      rw [← pow_add]
      congr 1
      omega
    rw [Nat.shiftLeft_eq, scaled, hsplit, ← Nat.mul_assoc, Nat.mul_div_cancel _ (by positivity)]
  have hround : UnpackedFloat.ofUInt64 .binary64 n.toUInt64 =
      .finite .positive (scaled n) (n.log2 - 52) (canonical_scaled hpos (by omega)).pos := by
    have hshift : (0 - (n.log2 - 52 : ℤ)).toNat = 52 - n.log2 := by omega
    have hexponent : 0 - ((52 - n.log2 : ℕ) : ℤ) = n.log2 - 52 := by omega
    rw [UnpackedFloat.ofUInt64, UnpackedFloat.ofNat, UnpackedFloat.ofInt, htoNat,
      UnpackedFloat.normalize, hcompare]
    dsimp only
    rw [UnpackedFloat.round, Int.toNat_natCast, htarget, decreaseExponent]
    dsimp only
    rw [hshift, hexponent, hmantissa]
    exact (canonical_scaled hpos (by omega)).roundWithAccuracy .positive
  rw [UInt64.toFloat, double]
  exact congrArg (fun parts => Float.ofModel (.pack parts)) hround

theorem log2_ten_pow_le : ∀ i < 23, (10 ^ i).log2 ≤ 1023 := by decide

theorem dvd_ten_pow : ∀ i < 23, 2 ^ (10 ^ i).log2 ∣ 10 ^ i * 2 ^ 52 := by decide

/-- The powers of ten that fractions are reckoned with are exact. -/
theorem powersOfTen_eq : ∀ i (h : i < Float.exactlyRepresentablePowersOfTen.size),
    Float.exactlyRepresentablePowersOfTen[i] =
      double .positive (canonical_scaled (Nat.pow_pos (by decide)) (log2_ten_pow_le i h)) := by
  decide +kernel

/-! ### Doubles -/

/-- A product of two doubles is rounded to the double nearest to it. -/
theorem Nearest.mul_double (hc : Canonical m q) (hc₁ : Canonical m₁ e₁) (hc₂ : Canonical m₂ e₂)
    (h : Nearest m q (m₁ * 2 ^ e₁ * (m₂ * 2 ^ e₂))) (hfull : 2 ^ 52 ≤ m₁ * m₂) :
    double .positive hc₁ * double .positive hc₂ = double .positive hc := by
  change Float.ofModel (.pack (UnpackedFloat.mul .binary64 (double .positive hc₁).toModel.unpack
    (double .positive hc₂).toModel.unpack)) = _
  rw [unpack_double, unpack_double, h.mul hc hfull]
  rfl

/-- A quotient of two doubles is rounded to the double nearest to it. -/
theorem Nearest.div_double (hc : Canonical m q) (hc₁ : Canonical m₁ e₁) (hc₂ : Canonical m₂ e₂)
    (h : Nearest m q (m₁ * 2 ^ e₁ / (m₂ * 2 ^ e₂))) :
    double .positive hc₁ / double .positive hc₂ = double .positive hc := by
  change Float.ofModel (.pack (UnpackedFloat.div .binary64 (double .positive hc₁).toModel.unpack
    (double .positive hc₂).toModel.unpack)) = _
  rw [unpack_double, unpack_double, h.div hc]
  rfl

/-- A whole number from its sign and its absolute value. -/
theorem ofNat_natAbs (e : ℤ) :
    (if decide (e < 0) then Int.negOfNat e.natAbs else .ofNat e.natAbs) = e := by
  rw [Int.negOfNat_eq, Int.ofNat_eq_natCast]
  split
  · next hneg =>
    have := of_decide_eq_true hneg
    omega
  · next hneg =>
    have := of_decide_eq_false (Bool.eq_false_of_not_eq_true hneg)
    omega

section Fractions

variable {c : ℕ} (hc : Canonical m q) (hpos : 0 < c) (h : Nearest m q (c * 10 ^ e))

include hpos h

/-- A whole number by a power of ten, both of them doubles, is the double for the fraction. -/
theorem Nearest.mul_powerOfTen (hlog : c.log2 ≤ 52) (he : 0 ≤ e)
    (hsmall : e.natAbs < Float.exactlyRepresentablePowersOfTen.size) :
    c.toUInt64.toFloat * Float.exactlyRepresentablePowersOfTen[e.natAbs] = double .positive hc := by
  have hdvd : 2 ^ c.log2 ∣ c * 2 ^ 52 := (pow_dvd_pow 2 hlog).mul_left c
  have hpower := scaled_mul (dvd_ten_pow e.natAbs hsmall)
  push_cast at hpower
  rw [toFloat_toUInt64 hpos hlog, powersOfTen_eq e.natAbs]
  refine Nearest.mul_double hc _ _ ?_ ?_
  · rw [scaled_mul hdvd, hpower]
    rwa [← Int.natAbs_of_nonneg he, zpow_natCast] at h
  · exact (le_scaled hpos).trans (Nat.le_mul_of_pos_right _
      ((le_scaled (by positivity)).trans_lt' (by positivity)))

/-- A small coefficient is divided by an exact power of ten, with one rounding. -/
theorem Nearest.div_powerOfTen (hlog : c.log2 ≤ 52) (he : e < 0)
    (hsmall : e.natAbs < Float.exactlyRepresentablePowersOfTen.size) :
    c.toUInt64.toFloat / Float.exactlyRepresentablePowersOfTen[e.natAbs] = double .positive hc := by
  have hdvd : 2 ^ c.log2 ∣ c * 2 ^ 52 := (pow_dvd_pow 2 hlog).mul_left c
  have hpower := scaled_mul (dvd_ten_pow e.natAbs hsmall)
  have he' : e = -(e.natAbs : ℤ) := by omega
  push_cast at hpower
  rw [toFloat_toUInt64 hpos hlog, powersOfTen_eq e.natAbs]
  refine Nearest.div_double hc _ _ ?_
  rw [scaled_mul hdvd, hpower]
  rwa [he', zpow_neg, zpow_natCast, ← div_eq_mul_inv] at h

/-- Small fractions are reckoned with doubles, and it makes no difference. -/
theorem Nearest.float_ofScientific (hlow : -(2048 + c.log2 : ℤ) ≤ e) (hhigh : e ≤ 2048) :
    Float.ofScientific c (e < 0) e.natAbs = double .positive hc := by
  rw [Float.ofScientific]
  split
  · next hsmall =>
    have hlog : c.log2 ≤ 52 := by
      have := (Nat.log2_lt hpos.ne').mpr hsmall.1
      omega
    have hsize : e.natAbs < Float.exactlyRepresentablePowersOfTen.size :=
      Nat.lt_succ_of_le hsmall.2
    dsimp only
    split
    · next hneg => exact h.div_powerOfTen hc hpos hlog (of_decide_eq_true hneg) hsize
    · next hneg => exact h.mul_powerOfTen hc hpos hlog (by simpa using hneg) hsize
  · dsimp only
    rw [ofNat_natAbs]
    change Float.ofModel (.pack (UnpackedFloat.ofScientific .binary64 c e)) = _
    rw [h.ofScientific hc hpos hlow hhigh]
    rfl

end Fractions

/-- The magnitude bounds a decimal from above. -/
theorem lt_tenTo_magnitude (c : ℕ) (e : ℤ) : (c * 10 ^ e : ℚ) < 10 ^ Numeral.magnitude c e := by
  have hlt : c < 10 ^ (Numeral.digits c).length := Numeral.lt_tenTo_length c
  have hlt' : (c : ℚ) < 10 ^ (Numeral.digits c).length := by exact_mod_cast hlt
  rw [Numeral.magnitude, zpow_add₀ (by norm_num), zpow_natCast]
  gcongr

/-- The magnitude bounds a decimal from below. -/
theorem tenTo_magnitude_le {c : ℕ} (hpos : 0 < c) (e : ℤ) :
    (10 ^ (Numeral.magnitude c e - 1) : ℚ) ≤ c * 10 ^ e := by
  have hle : 10 ^ ((Numeral.digits c).length - 1) ≤ c := Numeral.tenTo_le_of_length hpos
  have hle' : (10 : ℚ) ^ ((Numeral.digits c).length - 1) ≤ c := by exact_mod_cast hle
  have hlength := List.length_pos_iff.mpr (Numeral.digits_ne_nil c)
  have hexponent : Numeral.magnitude c e - 1 = ((Numeral.digits c).length - 1 : ℕ) + e := by
    rw [Numeral.magnitude]
    omega
  rw [hexponent, zpow_add₀ (by norm_num), zpow_natCast]
  gcongr

/-- What is next to a positive double is no less than half of the least one. -/
theorem Nearest.le_of_canonical (hc : Canonical m q) (h : Nearest m q v) :
    (2 : ℚ) ^ (-1075 : ℤ) ≤ v := by
  have hm : (1 : ℚ) ≤ m := by exact_mod_cast hc.pos
  have hgap := gap_le m q
  have hexponent : (-1075 : ℤ) = -1 + -1074 := by norm_num
  rw [hexponent, zpow_add₀ two_ne_zero]
  calc (2 : ℚ) ^ (-1 : ℤ) * 2 ^ (-1074 : ℤ) ≤ (m - gap m q) * 2 ^ q := by
        have hq := zpow_le_zpow_right₀ (one_le_two : (1 : ℚ) ≤ 2) hc.le
        rw [zpow_neg_one]
        gcongr <;> linarith
    _ ≤ v := h.low

/-- Three places of two are at most one of ten. -/
theorem two_pow_le_ten_pow {j k : ℕ} (h : j ≤ 3 * k) : (2 : ℚ) ^ j ≤ 10 ^ k :=
  calc (2 : ℚ) ^ j ≤ 2 ^ (3 * k) := pow_le_pow_right₀ one_le_two h
    _ = (2 ^ 3) ^ k := pow_mul ..
    _ ≤ 10 ^ k := pow_le_pow_left₀ (by norm_num) (by norm_num) k

section Magnitude

variable {c : ℕ} (hc : Canonical m q) (h : Nearest m q (c * 10 ^ e))

include hc h

/-- A decimal next to a double is not so small that it counts as zero. -/
theorem Nearest.le_magnitude : -400 ≤ Numeral.magnitude c e := by
  have hpow := (h.le_of_canonical hc).trans_lt (lt_tenTo_magnitude c e)
  have hsmall : (10 : ℚ) ^ (-401 : ℤ) ≤ 2 ^ (-1075 : ℤ) := by
    rw [zpow_neg, zpow_neg]
    exact inv_anti₀ (by positivity) (by exact_mod_cast two_pow_le_ten_pow (by decide))
  have hlt := (zpow_lt_zpow_iff_right₀ (by norm_num)).mp (hsmall.trans_lt hpow)
  omega

/-- A decimal next to a double is not so large that it counts as infinite. -/
theorem Nearest.magnitude_le (hpos : 0 < c) : Numeral.magnitude c e ≤ 400 := by
  have hpow := (tenTo_magnitude_le hpos e).trans_lt (h.lt_two_zpow hc)
  have hle : (2 : ℚ) ^ (53 + q) ≤ 2 ^ (1024 : ℤ) :=
    zpow_le_zpow_right₀ one_le_two (by have := hc.le_top; omega)
  have hlarge : (2 : ℚ) ^ (1024 : ℤ) ≤ 10 ^ (400 : ℤ) := by
    exact_mod_cast two_pow_le_ten_pow (by decide)
  have hlt := (zpow_lt_zpow_iff_right₀ (by norm_num)).mp (hpow.trans_le (hle.trans hlarge))
  omega

/-- A decimal fraction in the interval of a double is read as that double. -/
theorem Nearest.nearestDouble (hpos : 0 < c) :
    Numeral.nearestDouble c e = double .positive hc := by
  have hlow := h.le_magnitude hc
  have hhigh := h.magnitude_le hc hpos
  rw [Numeral.nearestDouble, if_neg, if_neg (by omega)]
  · have hlog : (Numeral.digits c).length - 1 ≤ c.log2 := by
      rw [Nat.le_log2 hpos.ne']
      exact (Nat.pow_le_pow_left (by decide) _).trans (Numeral.tenTo_le_of_length hpos)
    have hlength := List.length_pos_iff.mpr (Numeral.digits_ne_nil c)
    rw [Numeral.magnitude] at hlow hhigh
    exact h.float_ofScientific hc hpos (by omega) (by omega)
  · rw [Bool.or_eq_true, decide_eq_true_eq, decide_eq_true_eq]
    omega

end Magnitude

end Wireframe.Double
