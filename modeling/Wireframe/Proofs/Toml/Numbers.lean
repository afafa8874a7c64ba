import Wireframe.Proofs.Decimal.Numerals
import Wireframe.Proofs.Text.Runs
import Wireframe.Toml.Writer

/-!
# Numbers in TOML

A number is written with a point and digits on both sides of it, and so it is neither a word nor a
date, nor a whole number, but only a fraction (`Toml.Parts`). It is read back as the numeral that was
written unless that is too large for a double (`Toml.atom?_finite`).
-/

namespace Wireframe.Toml

open Numeral (digits signed valueOfDigits)

variable {negative : Bool} {coefficient : Nat} {exponent : Int} {whole places cs : List Char}

/-! ### The form of a number -/

/-- A number with digits on both sides of its point and no needless zero in front. -/
structure Parts (whole places : List Char) : Prop where
  whole_digits : ∀ c ∈ whole, c.isDigit = true
  places_digits : ∀ c ∈ places, c.isDigit = true
  whole_ne : whole ≠ []
  places_ne : places ≠ []
  no_zero : ∀ d ds, whole ≠ '0' :: d :: ds

theorem signed_append (negative : Bool) (cs ds : List Char) :
    signed negative cs ++ ds = signed negative (cs ++ ds) := by
  cases negative <;> rfl

/-- A number without places behind the point is written with one, which is a zero. -/
theorem exists_parts_of_nonneg (h : (Numeral.finite negative coefficient exponent).Normal)
    (hexponent : 0 ≤ exponent) : ∃ whole places, Parts whole places ∧
      number (.finite negative coefficient exponent) = signed negative (whole ++ '.' :: places) ∧
      ∃ count : Nat, valueOfDigits (whole ++ places) = coefficient * tenTo count ∧
        -(places.length : Int) = exponent - count := by
  refine ⟨digits coefficient ++ List.replicate exponent.toNat '0', ['0'], ?_, ?_,
    exponent.toNat + 1, ?_, ?_⟩
  · exact ⟨fun _ => Numeral.isDigit_of_mem_digits_zeros, List.forall_mem_singleton.mpr rfl,
      Numeral.digits_zeros_ne_nil, List.cons_ne_nil _ _, Numeral.digits_zeros_ne_zero h⟩
  · rw [number, Numeral.isWhole, if_pos (by simpa using hexponent), Numeral.text,
      Numeral.positional, if_pos hexponent, signed_append]
    · rfl
    · nofun
  · rw [List.append_assoc, ← List.replicate_one, List.replicate_append_replicate,
      Numeral.valueOfDigits_append_zeros, Numeral.valueOfDigits_digits]
  · rw [List.length_singleton]
    omega

/-- Digits with zeros in front where there are too few of them for so many places and one digit
before these. -/
def padded (count : Nat) (ds : List Char) : List Char :=
  List.replicate (count + 1 - ds.length) '0' ++ ds

/-- The digits before a point in front of so many places. -/
def beforePoint (count : Nat) (ds : List Char) : List Char :=
  (padded count ds).take ((padded count ds).length - count)

/-- The digits behind a point in front of so many places. -/
def behindPoint (count : Nat) (ds : List Char) : List Char :=
  (padded count ds).drop ((padded count ds).length - count)

variable {count : Nat} {ds : List Char}

theorem beforePoint_append (count : Nat) (ds : List Char) :
    beforePoint count ds ++ behindPoint count ds = padded count ds :=
  List.take_append_drop ..

theorem lt_length_padded (count : Nat) (ds : List Char) : count < (padded count ds).length := by
  rw [padded, List.length_append, List.length_replicate]
  omega

theorem length_beforePoint (count : Nat) (ds : List Char) :
    (beforePoint count ds).length = (padded count ds).length - count := by
  rw [beforePoint, List.length_take]
  omega

/-- As many digits stand behind the point as the exponent asks for. -/
theorem length_behindPoint (count : Nat) (ds : List Char) :
    (behindPoint count ds).length = count := by
  have := lt_length_padded count ds
  rw [behindPoint, List.length_drop]
  omega

theorem isDigit_of_mem_padded {c : Char} (h : c ∈ padded count (digits coefficient)) :
    c.isDigit = true :=
  (List.mem_append.mp h).elim Numeral.isDigit_of_mem_zeros Numeral.isDigit_of_mem_digits

/-- Zeros are in front of the digits only up to the first one before the point. -/
theorem beforePoint_ne_zero (hpos : 0 < coefficient) (d : Char) (more : List Char) :
    beforePoint count (digits coefficient) ≠ '0' :: d :: more := by
  intro heq
  by_cases hlong : (digits coefficient).length ≤ count
  · have hlength := length_beforePoint count (digits coefficient)
    rw [heq, padded, List.length_append, List.length_replicate, List.length_cons,
      List.length_cons] at hlength
    omega
  · have hsame : padded count (digits coefficient) = digits coefficient := by
      rw [padded, Nat.sub_eq_zero_of_le (by omega), List.replicate_zero, List.nil_append]
    refine Numeral.head?_digits hpos ?_
    rw [← hsame, ← beforePoint_append, heq]
    rfl

/-- A number with places behind the point has digits on both sides of it. -/
theorem parts_padded (hpos : 0 < coefficient) (hcount : 0 < count) :
    Parts (beforePoint count (digits coefficient)) (behindPoint count (digits coefficient)) := by
  have hlong := lt_length_padded count (digits coefficient)
  refine ⟨fun c hc => isDigit_of_mem_padded (List.mem_of_mem_take hc),
    fun c hc => isDigit_of_mem_padded (List.mem_of_mem_drop hc), ?_, ?_, beforePoint_ne_zero hpos⟩
  · rw [← List.length_pos_iff, length_beforePoint]
    omega
  · rwa [← List.length_pos_iff, length_behindPoint]

/-- A number with places behind the point is written as its digits with the point among them. -/
theorem exists_parts_of_neg (h : (Numeral.finite negative coefficient exponent).Normal)
    (hexponent : exponent < 0) : ∃ whole places, Parts whole places ∧
      number (.finite negative coefficient exponent) = signed negative (whole ++ '.' :: places) ∧
      ∃ count : Nat, valueOfDigits (whole ++ places) = coefficient * tenTo count ∧
        -(places.length : Int) = exponent - count := by
  have hpos : 0 < coefficient := by
    rcases h with h | ⟨-, rfl⟩ <;> omega
  obtain ⟨count, rfl⟩ : ∃ count : Nat, exponent = -count := ⟨exponent.natAbs, by omega⟩
  have hcount : 0 < count := by omega
  refine ⟨_, _, parts_padded hpos hcount, ?_, 0, ?_, ?_⟩
  · rw [number, Numeral.isWhole, if_neg (by simp; omega), Numeral.text, Numeral.positional,
      if_neg (by omega), Int.neg_neg, Int.toNat_natCast]
    · rfl
    · nofun
  · rw [beforePoint_append, padded, Numeral.valueOfDigits_zeros_append,
      Numeral.valueOfDigits_digits, tenTo_zero, Nat.mul_one]
  · rw [length_behindPoint]
    omega

theorem exists_parts (negative : Bool)
    (h : (Numeral.finite negative coefficient exponent).Normal) :
    ∃ whole places, Parts whole places ∧
      number (.finite negative coefficient exponent) = signed negative (whole ++ '.' :: places) ∧
      ∃ count : Nat, valueOfDigits (whole ++ places) = coefficient * tenTo count ∧
        -(places.length : Int) = exponent - count :=
  (Int.lt_or_le exponent 0).elim (exists_parts_of_neg h) (exists_parts_of_nonneg h)

/-! ### Other readings -/

/-- A point is no digit, so digits with a point are no whole number. -/
theorem plainDigits?_eq_none (afterDigit : Bool) (h : '.' ∈ cs) :
    plainDigits? Char.isDigit afterDigit cs = none := by
  induction cs generalizing afterDigit with
  | nil => cases h
  | cons c cs ih =>
    rw [plainDigits?]
    rcases List.mem_cons.mp h with rfl | h
    · rfl
    · rw [ih false h, ih true h]
      split
      · split <;> rfl
      · split <;> rfl

/-- Digits without underscores among them are read as they stand. -/
theorem plainDigits?_of_digits (afterDigit : Bool) (h : ∀ c ∈ cs, c.isDigit = true)
    (hne : cs ≠ [] ∨ afterDigit = true) : plainDigits? Char.isDigit afterDigit cs = some cs := by
  induction cs generalizing afterDigit with
  | nil =>
    rw [plainDigits?, if_pos (hne.resolve_left (fun hne => hne rfl))]
  | cons c cs ih =>
    obtain ⟨hc, hcs⟩ := List.forall_mem_cons.mp h
    have hunderscore : c ≠ '_' := by
      rintro rfl
      exact absurd hc (by decide)
    rw [plainDigits?, if_neg (by simpa using hunderscore), if_pos hc, ih true hcs (.inr rfl)]
    rfl

theorem afterChar?_eq_none {c : Char} (h : c ∉ cs) : afterChar? c cs = none := by
  cases cs with
  | nil => rfl
  | cons d cs =>
    rw [afterChar?, if_neg]
    rintro rfl
    exact h (List.mem_cons_self ..)

/-- A number of fixed length takes that many characters. -/
theorem rest_of_fixed? {count value : Nat} {rest : List Char}
    (h : fixed? count cs = some (value, rest)) : rest = cs.drop count := by
  rw [fixed?] at h
  split at h
  · exact (Prod.mk.inj (Option.some.inj h)).2.symm
  · cases h

/-- What has no hyphen behind the fourth character does not open with a date. -/
theorem afterDate?_eq_none (h : '-' ∉ cs.drop 4) : afterDate? cs = none := by
  rw [afterDate?]
  cases hfixed : fixed? 4 cs with
  | none => rfl
  | some found =>
    obtain ⟨year, rest⟩ := found
    obtain rfl := rest_of_fixed? hfixed
    simp only [Option.bind_eq_bind, Option.bind_some, afterChar?_eq_none h, Option.bind_none]

/-- What has no colon does not open with a time. -/
theorem afterTime?_eq_none (h : ':' ∉ cs) : afterTime? cs = none := by
  rw [afterTime?, afterHourMinute?]
  cases hfixed : fixed? 2 cs with
  | none => rfl
  | some found =>
    obtain ⟨hour, rest⟩ := found
    obtain rfl := rest_of_fixed? hfixed
    have hcolon : ':' ∉ cs.drop 2 := fun hc => h (List.mem_of_mem_drop hc)
    simp only [Option.bind_eq_bind, Option.bind_some, afterChar?_eq_none hcolon, Option.bind_none]

theorem isMoment_eq_false (hdash : '-' ∉ cs.drop 4) (hcolon : ':' ∉ cs) : isMoment cs = false := by
  rw [isMoment, afterDate?_eq_none hdash, afterTime?_eq_none hcolon]

/-! ### Reading numbers -/

/-- A digit is none of the characters that stand for something else. -/
theorem ne_of_isDigit {c d : Char} (h : c.isDigit = true) (hd : d.isDigit = false) : c ≠ d := by
  rintro rfl
  rw [h] at hd
  cases hd

namespace Parts

variable (h : Parts whole places)

include h

/-- A written number is made of characters that can stand in an atom. -/
theorem isAtomChar (negative : Bool) :
    ∀ c ∈ signed negative (whole ++ '.' :: places), isAtomChar c = true := by
  have hdigit : ∀ c, c.isDigit = true → Toml.isAtomChar c = true := by
    intro c hc
    simp [Toml.isAtomChar, Char.isAlphanum, hc]
  have hunsigned : ∀ c ∈ whole ++ '.' :: places, Toml.isAtomChar c = true := by
    refine List.forall_mem_append.mpr ⟨fun c hc => hdigit c (h.whole_digits c hc), ?_⟩
    exact List.forall_mem_cons.mpr ⟨by decide, fun c hc => hdigit c (h.places_digits c hc)⟩
  cases negative with
  | false => exact hunsigned
  | true => exact List.forall_mem_cons.mpr ⟨by decide, hunsigned⟩

/-- A character that is no digit and no point is not in a number behind its sign. -/
theorem not_mem {c : Char} (hdigit : c.isDigit = false) (hpoint : c ≠ '.') :
    c ∉ whole ++ '.' :: places := by
  rw [List.mem_append, List.mem_cons]
  rintro (hc | hc | hc)
  · exact ne_of_isDigit (h.whole_digits c hc) hdigit rfl
  · exact hpoint hc
  · exact ne_of_isDigit (h.places_digits c hc) hdigit rfl

/-- The sign of a written number is split off. -/
theorem splitSign (negative : Bool) :
    splitSign (signed negative (whole ++ '.' :: places)) =
      (negative, negative, whole ++ '.' :: places) := by
  cases negative with
  | true => rfl
  | false =>
    rw [signed, if_neg Bool.false_ne_true, Toml.splitSign]
    · exact fun more heq => h.not_mem (by decide) (by decide) (heq ▸ List.mem_cons_self ..)
    · exact fun more heq => h.not_mem (by decide) (by decide) (heq ▸ List.mem_cons_self ..)

/-- A written number is no moment. -/
theorem isMoment (negative : Bool) :
    isMoment (signed negative (whole ++ '.' :: places)) = false := by
  have hdash : '-' ∉ whole ++ '.' :: places := h.not_mem (by decide) (by decide)
  have hcolon : ':' ∉ whole ++ '.' :: places := h.not_mem (by decide) (by decide)
  cases negative with
  | false => exact isMoment_eq_false (fun hmem => hdash (List.mem_of_mem_drop hmem)) hcolon
  | true =>
    refine isMoment_eq_false (fun hmem => hdash ?_) ?_
    · exact List.mem_of_mem_drop (i := 3) hmem
    · rw [signed, if_pos rfl, List.mem_cons, not_or]
      exact ⟨by decide, hcolon⟩

/-- A written number is no special one. -/
theorem special? (negative : Bool) :
    special? (signed negative (whole ++ '.' :: places)) = none := by
  have hne (word : List Char) (hword : '.' ∉ word) : (whole ++ '.' :: places == word) = false := by
    refine beq_false_of_ne ?_
    rintro rfl
    exact hword (List.mem_append_right _ (List.mem_cons_self ..))
  rw [Toml.special?, h.splitSign]
  dsimp only
  rw [hne _ (by decide), hne _ (by decide)]
  rfl

/-- A written number is no whole one, for it has a point. -/
theorem whole? (negative : Bool) :
    whole? (signed negative (whole ++ '.' :: places)) = none := by
  have hletter (c : Char) (hc : c.isDigit = false) (hpoint : c ≠ '.') (hdash : c ≠ '-')
      (more : List Char) : signed negative (whole ++ '.' :: places) ≠ '0' :: c :: more := by
    intro heq
    have hmem : c ∈ signed negative (whole ++ '.' :: places) :=
      heq ▸ List.mem_cons_of_mem _ (List.mem_cons_self ..)
    cases negative with
    | false => exact h.not_mem hc hpoint hmem
    | true => exact h.not_mem hc hpoint (List.mem_of_ne_of_mem hdash hmem)
  have hnone : wholeDigits? (whole ++ '.' :: places) = none := by
    rw [wholeDigits?, plainDigits?_eq_none false (List.mem_append_right _ (List.mem_cons_self ..))]
  rw [Toml.whole?, h.splitSign]
  · dsimp only
    rw [hnone, Option.bind_none]
  · exact fun more => hletter 'x' (by decide) (by decide) (by decide) more
  · exact fun more => hletter 'o' (by decide) (by decide) (by decide) more
  · exact fun more => hletter 'b' (by decide) (by decide) (by decide) more

/-- The digits before the point are read as they stand, for they have no zero in front. -/
theorem wholeDigits? : wholeDigits? whole = some whole := by
  rw [Toml.wholeDigits?, plainDigits?_of_digits false h.whole_digits (.inl h.whole_ne)]
  split
  · rename_i heq
    exact absurd (Option.some.inj heq) (h.no_zero _ _)
  · rfl

/-- A written number is read as the fraction that its digits stand for. -/
theorem fraction? (negative : Bool) :
    fraction? (signed negative (whole ++ '.' :: places)) =
      let numeral := Numeral.decimal negative (valueOfDigits (whole ++ places)) (-places.length)
      if numeral.overflows then none else some (.number numeral) := by
  have hexponent : (whole ++ '.' :: places).span (fun c => c != 'e' && c != 'E') =
      (whole ++ '.' :: places, []) := by
    refine Text.span_of_all fun c hc => ?_
    rw [Bool.and_eq_true, bne_iff_ne, bne_iff_ne]
    constructor <;> rintro rfl
    · exact h.not_mem (by decide) (by decide) hc
    · exact h.not_mem (by decide) (by decide) hc
  have hpoint : (whole ++ '.' :: places).span (· != '.') = (whole, '.' :: places) := by
    refine Text.span_append_cons (fun c hc => ?_) (by decide) places
    rw [bne_iff_ne]
    exact ne_of_isDigit (h.whole_digits c hc) (by decide)
  rw [Toml.fraction?, h.splitSign]
  simp only [hexponent, hpoint, h.wholeDigits?,
    plainDigits?_of_digits false h.places_digits (.inl h.places_ne), List.isEmpty_cons,
    Option.bind_eq_bind, Option.bind_some, Bool.false_eq_true, if_false, Int.zero_sub]

end Parts

/-- A finite number that a double can hold is read as it was written. -/
theorem atom?_finite (h : (Numeral.finite negative coefficient exponent).Normal)
    (hoverflows : (Numeral.finite negative coefficient exponent).overflows = false) :
    atom? (number (.finite negative coefficient exponent)) =
      some (.number (.finite negative coefficient exponent)) := by
  obtain ⟨whole, places, hparts, hnumber, count, hvalue, hlength⟩ := exists_parts negative h
  have hword (word : List Char) (hword : '.' ∉ word) :
      (signed negative (whole ++ '.' :: places) == word) = false := by
    refine beq_false_of_ne ?_
    rintro rfl
    refine hword ?_
    cases negative <;> simp [signed]
  rw [hnumber, atom?, hword _ (by decide), hword _ (by decide), hparts.isMoment, hparts.special?,
    hparts.whole?, hparts.fraction?, hvalue, hlength, Numeral.decimal_mul_tenTo h]
  simp [hoverflows]

end Wireframe.Toml
