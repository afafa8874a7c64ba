import Wireframe.Decimal.Double

/-!
# Numerals and their digits

The digits of a number give the number again, whatever zeros are put in front of them, and each zero
behind them multiplies it by ten. A decimal fraction has one normal form (`Numeral.decimal_eq`), so
how many zeros a coefficient ends in does not matter to the numeral that is made of it.
-/

namespace Wireframe.Numeral

variable {negative : Bool} {n coefficient : Nat} {exponent : Int}

/-! ### Digits -/

theorem valueOfDigits_digits (n : Nat) : valueOfDigits (digits n) = n :=
  Nat.ofDigitChars_ten_toDigits

theorem valueOfDigits_zeros_append (count : Nat) (ds : List Char) :
    valueOfDigits (List.replicate count '0' ++ ds) = valueOfDigits ds := by
  have happend := Nat.ofDigitChars_append (b := 10) (l := List.replicate count '0') (m := ds) 0
  rwa [Nat.ofDigitChars_replicate_zero, Nat.mul_zero] at happend

theorem valueOfDigits_append_zeros (ds : List Char) (count : Nat) :
    valueOfDigits (ds ++ List.replicate count '0') = valueOfDigits ds * tenTo count := by
  have happend := Nat.ofDigitChars_append (b := 10) (l := ds) (m := List.replicate count '0') 0
  rwa [Nat.ofDigitChars_replicate_zero, Nat.mul_comm] at happend

theorem isDigit_of_mem_digits {c : Char} (h : c ∈ digits n) : c.isDigit = true :=
  Nat.isDigit_of_mem_toDigits (by decide) (by decide) h

theorem digits_ne_nil (n : Nat) : digits n ≠ [] := Nat.toDigits_ne_nil

/-- The digits of a positive number do not begin with a zero. -/
theorem head?_digits (h : 0 < n) : (digits n).head? ≠ some '0' := by
  induction n using Nat.strongRecOn with
  | ind n ih =>
    by_cases hlow : n < 10
    · have hall : ∀ n < 10, 0 < n → (digits n).head? ≠ some '0' := by decide
      exact hall n hlow h
    · have hdigits : digits n = digits (n / 10) ++ [Nat.digitChar (n % 10)] :=
        Nat.toDigits_of_base_le (by decide) (by omega)
      have hhead := ih (n / 10) (by omega) (by omega)
      obtain ⟨d, ds, hds⟩ := List.exists_cons_of_ne_nil (digits_ne_nil (n / 10))
      rw [hds, List.head?_cons] at hhead
      rwa [hdigits, hds, List.cons_append, List.head?_cons]

theorem isDigit_of_mem_zeros {c : Char} {count : Nat} (h : c ∈ List.replicate count '0') :
    c.isDigit = true := by
  rw [List.eq_of_mem_replicate h]
  rfl

theorem isDigit_of_mem_digits_zeros {c : Char} {count : Nat}
    (h : c ∈ digits n ++ List.replicate count '0') : c.isDigit = true :=
  (List.mem_append.mp h).elim isDigit_of_mem_digits isDigit_of_mem_zeros

theorem digits_zeros_ne_nil {count : Nat} : digits n ++ List.replicate count '0' ≠ [] :=
  fun hnil => digits_ne_nil n (List.append_eq_nil_iff.mp hnil).1

theorem lt_tenTo_length (n : Nat) : n < tenTo (digits n).length :=
  (Nat.length_toDigits_le_iff (by decide) (List.length_pos_iff.mpr (digits_ne_nil n))).mp
    (Nat.le_refl _)

/-- A number is not below the power of ten with as many digits. -/
theorem tenTo_le_of_length (h : 0 < n) : tenTo ((digits n).length - 1) ≤ n := by
  by_cases hone : (digits n).length - 1 = 0
  · rw [hone]
    exact h
  · have hiff := Nat.length_toDigits_le_iff (b := 10) (n := n) (k := (digits n).length - 1)
      (by decide) (by omega)
    rw [← Nat.not_lt]
    intro hlt
    have hle : (digits n).length ≤ (digits n).length - 1 := hiff.mpr hlt
    omega

/-! ### Normal forms -/

/-- Whether a decimal fraction is written without needless zeros. -/
def Normal : Numeral → Prop
  | finite _ coefficient exponent => coefficient % 10 ≠ 0 ∨ coefficient = 0 ∧ exponent = 0
  | _ => True

/-- A number without needless zeros has none in front when it is written out. -/
theorem digits_zeros_ne_zero (h : (finite negative coefficient exponent).Normal) (d : Char)
    (ds : List Char) :
    digits coefficient ++ List.replicate exponent.toNat '0' ≠ '0' :: d :: ds := by
  rcases h with h | ⟨rfl, rfl⟩
  · have hhead := head?_digits (show 0 < coefficient by omega)
    obtain ⟨first, rest, hdigits⟩ := List.exists_cons_of_ne_nil (digits_ne_nil coefficient)
    rw [hdigits] at hhead ⊢
    exact fun heq => hhead (congrArg some (List.cons.inj heq).1)
  · nofun

/-- With the zeros stripped the last digit is not a zero, if the limit was high enough. -/
theorem stripZeros_normal {limit : Nat} (h : 0 < coefficient) (hlimit : coefficient < tenTo limit) :
    (stripZeros limit coefficient exponent).1 % 10 ≠ 0 := by
  induction limit generalizing coefficient exponent with
  | zero =>
    rw [tenTo_zero] at hlimit
    omega
  | succ limit ih =>
    rw [tenTo_succ] at hlimit
    rw [stripZeros]
    split
    · exact ih (by omega) (by omega)
    · assumption

/-- A decimal is given in its normal form. -/
theorem normal_decimal (negative : Bool) (coefficient : Nat) (exponent : Int) :
    (decimal negative coefficient exponent).Normal := by
  rw [decimal]
  split
  · exact .inr ⟨rfl, rfl⟩
  · exact .inl (stripZeros_normal (by omega) (lt_tenTo_length coefficient))

/-- Numbers that do not end in a zero are the same if they are with some zeros each. -/
theorem eq_of_mul_tenTo {m : Nat} {j k : Nat} (hm : m % 10 ≠ 0) (hn : n % 10 ≠ 0)
    (h : m * tenTo j = n * tenTo k) : m = n ∧ j = k := by
  induction j generalizing k with
  | zero =>
    cases k with
    | zero => simpa [tenTo_zero] using h
    | succ k =>
      rw [tenTo_zero, tenTo_succ, ← Nat.mul_assoc] at h
      omega
  | succ j ih =>
    cases k with
    | zero =>
      rw [tenTo_zero, tenTo_succ, ← Nat.mul_assoc] at h
      omega
    | succ k =>
      rw [tenTo_succ, tenTo_succ, ← Nat.mul_assoc, ← Nat.mul_assoc] at h
      obtain ⟨heq, hjk⟩ := ih (Nat.eq_of_mul_eq_mul_right (by decide) h)
      exact ⟨heq, congrArg _ hjk⟩

/-- A coefficient that ends in zeros gives the same numeral as one without them. -/
theorem decimal_mul_tenTo (h : (finite negative coefficient exponent).Normal) (count : Nat) :
    decimal negative (coefficient * tenTo count) (exponent - count) =
      finite negative coefficient exponent := by
  rcases h with h | ⟨rfl, rfl⟩
  · have hpos : 0 < coefficient * tenTo count := Nat.mul_pos (by omega) (tenTo_pos count)
    rw [decimal, if_neg (by omega)]
    obtain ⟨k, hexponent, hvalue⟩ := stripZeros_value
      (digits (coefficient * tenTo count)).length (coefficient * tenTo count) (exponent - count)
    have hnormal : (stripZeros (digits (coefficient * tenTo count)).length
        (coefficient * tenTo count) (exponent - count)).1 % 10 ≠ 0 :=
      stripZeros_normal hpos (lt_tenTo_length _)
    obtain ⟨hcoefficient, hcount⟩ := eq_of_mul_tenTo hnormal h hvalue
    dsimp only
    rw [hcoefficient, hexponent, hcount]
    congr 1
    omega
  · rw [decimal, Nat.zero_mul, if_pos rfl]

/-- The numeral for the bits of a double is in its normal form. -/
theorem normal_ofBits (bits : UInt64) : (Decimal.ofBits bits).Normal := by
  rw [Decimal.ofBits]
  dsimp only
  split
  · split <;> exact trivial
  · split
    · split
      · exact .inr ⟨rfl, rfl⟩
      · exact normal_decimal ..
    · exact normal_decimal ..

theorem normal_ofDouble (x : Float) : (ofDouble x).Normal := normal_ofBits x.toBits

end Wireframe.Numeral
