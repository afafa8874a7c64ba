import Mathlib
import Wireframe.Decimal.Double
import Wireframe.Proofs.Decimal.Rounding

/-!
# Doubles and their parts

A double that is a number is its sign, its mantissa and its exponent, packed (`Double.eq_pack`), and
they are what doubles have (`Double.canonical_of_unpack`). Packing loses nothing of such parts
(`Canonical.unpack_pack`). The numeral for a double depends on its parts alone
(`Double.ofDouble_eq`).
-/

namespace Wireframe.Double

open Decimal Float.Model Float.Model.UnpackedFloat

variable {m : ℕ} {q : ℤ} {sign : Sign} {x : Float}

/-! ### Fields -/

/-- The parts of a double by its fields: the sign, the exponent as it is kept, and the mantissa
without its first bit. -/
def ofFields (sign : Sign) (biased fraction : ℕ) : UnpackedFloat :=
  if biased = 0x7FF then if fraction = 0 then .infinity sign else .notANumber
  else if biased = 0 then
    if h : 0 < fraction then .finite sign fraction (-1074) h else .zero sign
  else .finite sign (fraction + 2 ^ 52) (biased - 1075) (by positivity)

/-- The first bit of a mantissa, which is not kept, stands for two to the power 52. -/
theorem toNat_one_append (mantissa : BitVec 52) :
    (1#1 ++ mantissa).toNat = mantissa.toNat + 2 ^ 52 := by
  rw [BitVec.toNat_append, ← Nat.shiftLeft_add_eq_or_of_lt mantissa.isLt, Nat.add_comm]
  rfl

/-- Fields that have been packed are unpacked as they were. -/
theorem unpack_packComponents (sign : Sign) (exponent : BitVec 11) (mantissa : BitVec 52) :
    UnpackedFloat.unpack .binary64 (packComponents .binary64 sign exponent mantissa) =
      ofFields sign exponent.toNat mantissa.toNat := by
  have hmax : exponent = -1#11 ↔ exponent.toNat = 0x7FF := BitVec.toNat_inj.symm
  have hmin : exponent = 0#11 ↔ exponent.toNat = 0 := BitVec.toNat_inj.symm
  have hzero : mantissa = 0#52 ↔ mantissa.toNat = 0 := BitVec.toNat_inj.symm
  simp only [UnpackedFloat.unpack, unpackExponent_packComponents, unpackMantissa_packComponents,
    unpackSign_packComponents, Sign.ofBitVec_toBitVec]
  rw [ofFields]
  by_cases h : exponent.toNat = 0x7FF
  · rw [if_pos (hmax.mpr h), if_pos h]
    exact if_congr hzero rfl rfl
  · rw [if_neg (mt hmax.mp h), if_neg h]
    by_cases h' : exponent.toNat = 0
    · rw [if_pos (hmin.mpr h'), if_pos h']
      by_cases hpos : 0 < mantissa.toNat
      · rw [dif_neg (mt hzero.mp hpos.ne'), dif_pos hpos, h']
        rfl
      · rw [dif_pos (hzero.mpr (by omega)), dif_neg hpos]
    · rw [if_neg (mt hmin.mp h'), if_neg h']
      congr 1
      exact toNat_one_append mantissa

/-! ### Packing -/

theorem eq_pack (x : Float) : x = .ofModel (.pack x.toModel.unpack) := (Float.ofBits_toBits x).symm

/-- The parts that fields stand for are parts of a double. -/
theorem canonical_ofFields {sign' : Sign} {biased fraction : ℕ} {h : 0 < m}
    (hbiased : biased < 2048) (hfraction : fraction < 2 ^ 52)
    (hx : ofFields sign biased fraction = .finite sign' m q h) : Canonical m q := by
  rw [ofFields] at hx
  split at hx
  · split at hx <;> cases hx
  · split at hx
    · split at hx
      · cases hx
        exact ⟨h, by omega, le_rfl, .inr rfl, by omega⟩
      · cases hx
    · cases hx
      exact ⟨h, by omega, by omega, .inl (by omega), by omega⟩

/-- Packing loses nothing of the parts of a double. -/
theorem Canonical.unpack_pack (hc : Canonical m q) (sign : Sign) :
    (Float.Model.pack (.finite sign m q hc.pos)).unpack = .finite sign m q hc.pos := by
  have htop := hc.le_top
  have hlow := hc.le
  have hlt := hc.lt
  have hbiased : (q + Format.binary64.exponentBias +
      Format.binary64.mantissaBitsWithoutImplicit).toNat = (q + 1075).toNat := by
    change (q + 1023 + 52).toNat = _
    omega
  have hmax : ¬ 2 ^ Format.binary64.exponentBits ≤ (q + 1075).toNat + 1 := by
    change ¬ 2048 ≤ _
    omega
  have hbits : Format.binary64.mantissaBits = 53 := rfl
  have hlog : m.log2 < 53 := (Nat.log2_lt hc.pos.ne').mpr hlt
  rw [Float.Model.unpack, Float.Model.pack, UInt64.toBitVec_ofBitVec, UnpackedFloat.pack]
  dsimp only
  rw [hbiased, if_neg hmax, hbits]
  split
  · next hfull =>
    have hm : 2 ^ 52 ≤ m := (Nat.le_log2 hc.pos.ne').mp (by omega)
    rw [unpack_packComponents, BitVec.toNat_ofNat, BitVec.toNat_ofNat, ofFields, if_neg (by omega),
      if_neg (by omega)]
    congr 1 <;> omega
  · next hfull =>
    have hm : m < 2 ^ 52 := (Nat.log2_lt hc.pos.ne').mp (by omega)
    have hmantissa : m % 2 ^ 52 = m := Nat.mod_eq_of_lt hm
    obtain rfl : q = -1074 := hc.full.resolve_left (by omega)
    rw [unpack_packComponents, BitVec.toNat_ofNat, BitVec.toNat_ofNat, hmantissa]
    exact dif_pos hc.pos

/-! ### Bits -/

theorem toNat_unpackExponent (bits : UInt64) :
    (@unpackExponent .binary64 bits.toBitVec).toNat =
      ((bits >>> 52) &&& 0x7FF).toNat := by
  rw [unpackExponent_def, UInt64.toNat_and, UInt64.toNat_shiftRight]
  exact (Nat.and_two_pow_sub_one_eq_mod (bits.toNat >>> 52) 11).symm

theorem toNat_unpackMantissa (bits : UInt64) :
    (@unpackMantissa .binary64 bits.toBitVec).toNat = (bits &&& 0xFFFFFFFFFFFFF).toNat := by
  rw [unpackMantissa_def, UInt64.toNat_and]
  exact (Nat.and_two_pow_sub_one_eq_mod bits.toNat 52).symm

/-- The first bit is the sign. -/
theorem toNat_unpackSign (bits : UInt64) :
    (@unpackSign .binary64 bits.toBitVec).toNat = (bits >>> 63).toNat := by
  have hlt : bits.toNat < 2 ^ 64 := bits.toNat_lt
  rw [unpackSign_def, UInt64.toNat_shiftRight]
  change bits.toNat >>> 63 % 2 = bits.toNat >>> 63
  rw [Nat.shiftRight_eq_div_pow]
  omega

/-- The parts of a double are those of the fields that are cut out of its bits. -/
theorem unpack_eq_ofFields (bits : UInt64) :
    UnpackedFloat.unpack .binary64 bits.toBitVec =
      ofFields (.ofBitVec (@unpackSign .binary64 bits.toBitVec))
        ((bits >>> 52) &&& 0x7FF).toNat (bits &&& 0xFFFFFFFFFFFFF).toNat := by
  rw [← toNat_unpackExponent, ← toNat_unpackMantissa]
  have hpacked :=
    @packComponents_unpackSign_unpackExponent_unpackMantissa .binary64 bits.toBitVec
  conv => lhs; rw [← hpacked]
  exact unpack_packComponents ..

/-- What a double is unpacked to are parts of a double. -/
theorem canonical_of_unpack {h : 0 < m} (hx : x.toModel.unpack = .finite sign m q h) :
    Canonical m q := by
  rw [Float.Model.unpack, unpack_eq_ofFields] at hx
  refine canonical_ofFields ?_ ?_ hx
  · rw [← toNat_unpackExponent]
    exact BitVec.isLt _
  · rw [← toNat_unpackMantissa]
    exact BitVec.isLt _

/-- The double with a sign, a mantissa and an exponent. -/
def double (sign : Sign) (hc : Canonical m q) : Float :=
  .ofModel (.pack (.finite sign m q hc.pos))

@[simp]
theorem unpack_double (sign : Sign) (hc : Canonical m q) :
    (double sign hc).toModel.unpack = .finite sign m q hc.pos := hc.unpack_pack sign

/-- A double that is a number is determined by its sign, mantissa and exponent. -/
theorem eq_double {h : 0 < m} (hx : x.toModel.unpack = .finite sign m q h) :
    x = double sign (canonical_of_unpack hx) := by
  rw [double, ← hx]
  exact eq_pack x

theorem neg_double (hc : Canonical m q) : -double .positive hc = double .negative hc :=
  congrArg (fun parts => Float.ofModel (.pack (neg parts))) (unpack_double .positive hc)

/-! ### Numerals -/

/-- Whether a sign is minus. -/
def isNegative : Sign → Bool
  | .positive => false
  | .negative => true

theorem isNegative_ofBitVec : ∀ bit : BitVec 1, isNegative (.ofBitVec bit) = (bit.toNat == 1) := by
  decide

/-- Whether a double is negative can be seen at its first bit. -/
theorem isNegative_unpackSign (bits : UInt64) :
    isNegative (.ofBitVec (@unpackSign .binary64 bits.toBitVec)) =
      (bits >>> 63 == 1) := by
  rw [isNegative_ofBitVec, toNat_unpackSign, Bool.eq_iff_iff, beq_iff_eq, beq_iff_eq,
    ← UInt64.toNat_inj]
  rfl

/-- The numeral for the parts of a double. -/
def numeral : UnpackedFloat → Numeral
  | .infinity sign => .infinite (isNegative sign)
  | .notANumber => .nan
  | .zero sign => .finite (isNegative sign) 0 0
  | .finite sign m q _ =>
    let found := (Rounding.ofDouble m q (m = 2 ^ 52 ∧ -1074 < q)).shortest
    .decimal (isNegative sign) found.1 found.2

/-- The numeral for a double depends on nothing but its parts. -/
theorem ofDouble_eq (x : Float) : Numeral.ofDouble x = numeral x.toModel.unpack := by
  rw [Numeral.ofDouble, Decimal.ofBits, Float.Model.unpack]
  change _ = numeral (UnpackedFloat.unpack .binary64 x.toBits.toBitVec)
  rw [unpack_eq_ofFields, ← isNegative_unpackSign]
  have hfraction : (x.toBits &&& 0xFFFFFFFFFFFFF).toNat < 2 ^ 52 := by
    rw [← toNat_unpackMantissa]
    exact BitVec.isLt _
  generalize (x.toBits &&& 0xFFFFFFFFFFFFF).toNat = fraction at hfraction ⊢
  generalize ((x.toBits >>> 52) &&& 0x7FF).toNat = biased
  generalize Sign.ofBitVec _ = sign
  dsimp only
  rw [ofFields]
  split
  · split <;> rfl
  · split
    · split
      · next h =>
        rw [dif_neg (by omega)]
        rfl
      · next h =>
        have hbelow : decide (fraction = 2 ^ 52 ∧ (-1074 : ℤ) < -1074) = false :=
          decide_eq_false (by omega)
        rw [dif_pos (by omega), numeral, hbelow]
    · have hbelow : decide (fraction + 2 ^ 52 = 2 ^ 52 ∧ (-1074 : ℤ) < biased - 1075) =
          (fraction == 0 && decide (1 < biased)) := by
        rw [Bool.eq_iff_iff, decide_eq_true_eq, Bool.and_eq_true, beq_iff_eq, decide_eq_true_eq]
        omega
      rw [numeral, hbelow]
      rfl

end Wireframe.Double
