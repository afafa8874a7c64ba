import Wireframe.Json.Reader
import Wireframe.Json.Writer
import Wireframe.Proofs.Toml.Numbers

/-!
# Texts and numbers in JSON

A text that has been written is read back unit by unit (`Json.units?_escape`), and its units make
the text again, because no character is half of a surrogate pair (`Json.textData_units`). A number is
read back from its positional form (`Json.number?_text`), provided that what stands behind it does
not carry it on (`Json.Stops`).
-/

namespace Wireframe.Json

open Numeral (digits signed valueOfDigits)

/-! ### Texts -/

section Texts

variable {c : Char} {cs rest : List Char}

theorem hexNumber?_hexDigit :
    ∀ n < 0x20, hexNumber? ['0', '0', hexDigit (n / 16), hexDigit (n % 16)] = some n := by decide

/-- What a short escape stands for is read back, and it is not taken for a code. -/
theorem shortEscaped?_of_shortEscape? {letter : Char} (h : shortEscape? c = some letter) :
    shortEscaped? letter = some c ∧ letter ≠ 'u' := by
  unfold shortEscape? at h
  split at h <;> first
    | (obtain rfl := Option.some.inj h; exact ⟨rfl, by decide⟩)
    | cases h

theorem plain_of_shortEscape? (h : shortEscape? c = none) : c ≠ '"' ∧ c ≠ '\\' := by
  constructor <;> rintro rfl <;> cases h

theorem units?_short {letter : Char} (hletter : shortEscaped? letter = some c) (hu : letter ≠ 'u')
    (cs : List Char) : units? ('\\' :: letter :: cs) =
      (units? cs).map fun found => (c.toNat :: found.1, found.2) := by
  rw [units?, hletter, Option.bind_some]
  exact fun _ _ _ _ _ heq _ => hu heq

/-- A character that needs no escape is read as itself. -/
theorem units?_plain (hquote : c ≠ '"') (hbackslash : c ≠ '\\') (hcontrol : ¬ c.toNat < 0x20)
    (cs : List Char) :
    units? (c :: cs) = (units? cs).map fun found => (c.toNat :: found.1, found.2) := by
  rw [units?, if_neg (by simp [hcontrol, hbackslash])]
  · exact hquote
  · exact fun _ _ _ _ _ heq _ => hbackslash heq
  · exact fun _ _ heq _ => hbackslash heq

/-- A character of a text is read back. -/
theorem units?_escapeChar (c : Char) (cs : List Char) : units? (escapeChar c ++ cs) =
    (units? cs).map fun found => (c.toNat :: found.1, found.2) := by
  rw [escapeChar]
  cases hshort : shortEscape? c with
  | some letter =>
    obtain ⟨hletter, hu⟩ := shortEscaped?_of_shortEscape? hshort
    exact units?_short hletter hu cs
  | none =>
    obtain ⟨hquote, hbackslash⟩ := plain_of_shortEscape? hshort
    dsimp only
    split_ifs with hcontrol
    · simp only [List.cons_append, List.nil_append]
      rw [units?, hexNumber?_hexDigit _ hcontrol, Option.bind_some]
    · exact units?_plain hquote hbackslash hcontrol cs

/-- A text is read back as the units of its characters, up to the closing quote. -/
theorem units?_escape (cs rest : List Char) :
    units? (cs.flatMap escapeChar ++ '"' :: rest) = some (cs.map Char.toNat, rest) := by
  induction cs with
  | nil => rw [List.flatMap_nil, List.nil_append, units?, List.map_nil]
  | cons c cs ih =>
    rw [List.flatMap_cons, List.append_assoc, units?_escapeChar, ih, Option.map_some, List.map_cons]

/-- A character is no half of a surrogate pair. -/
theorem not_surrogate (c : Char) : isHigh c.toNat = false ∧ isLow c.toNat = false := by
  have hvalid : c.toNat < 0xD800 ∨ 0xDFFF < c.toNat ∧ c.toNat < 0x110000 := c.valid
  simp only [isHigh, isLow, Bool.and_eq_false_iff, decide_eq_false_iff_not]
  omega

/-- The units of characters make up these characters. -/
theorem textOfUnits?_map_toNat (cs : List Char) : textOfUnits? (cs.map Char.toNat) = some cs := by
  induction cs with
  | nil => rfl
  | cons c cs ih =>
    obtain ⟨hhigh, hlow⟩ := not_surrogate c
    cases cs with
    | nil => simp [textOfUnits?, hhigh, hlow]
    | cons d cs =>
      rw [List.map_cons] at ih
      simp [textOfUnits?, hhigh, hlow, ih]

/-- The units of a text make the text again. -/
theorem textData_units (value : String) :
    textData (value.toList.map Char.toNat) = .text value := by
  rw [textData, textOfUnits?_map_toNat]
  exact congrArg Data.text String.ofList_toList

end Texts

/-! ### Numbers -/

/-- Whether what stands behind a number does not carry it on. -/
def Stops (rest : List Char) : Prop :=
  ∀ c ∈ rest.head?, c.isDigit = false ∧ c ∉ ['.', 'e', 'E']

section Numbers

variable {negative : Bool} {coefficient : ℕ} {exponent : ℤ}
variable {whole fraction places rest : List Char}

theorem stops_nil : Stops [] := fun _ h => absurd h (by simp)

theorem stops_cons {c : Char} (h : c.isDigit = false ∧ c ∉ ['.', 'e', 'E']) (cs : List Char) :
    Stops (c :: cs) := by
  intro d hd
  rw [List.head?_cons, Option.mem_some] at hd
  exact hd ▸ h

/-- All the digits in front are read, and nothing behind them. -/
theorem digits?_append (hwhole : ∀ c ∈ whole, c.isDigit = true) (hne : whole ≠ [])
    (hrest : ∀ c ∈ rest.head?, c.isDigit = false) :
    digits? (whole ++ rest) = some (whole, rest) := by
  have hspan : (whole ++ rest).span Char.isDigit = (whole, rest) := by
    cases rest with
    | nil => rw [List.append_nil, Text.span_of_all hwhole]
    | cons c rest => exact Text.span_append_cons hwhole (hrest c rfl) rest
  obtain ⟨d, ds, rfl⟩ := List.exists_cons_of_ne_nil hne
  rw [digits?, hspan]

/-- The digits in front of the point of a number: no zero is there without need. -/
structure Whole (whole : List Char) : Prop where
  digits : ∀ c ∈ whole, c.isDigit = true
  ne_nil : whole ≠ []
  no_zero : ∀ d ds, whole ≠ '0' :: d :: ds

/-- A whole number is read up to what is no digit. -/
theorem Whole.wholeDigits? (h : Whole whole) (hrest : ∀ c ∈ rest.head?, c.isDigit = false) :
    wholeDigits? (whole ++ rest) = some (whole, rest) := by
  obtain ⟨d, ds, rfl⟩ := List.exists_cons_of_ne_nil h.ne_nil
  by_cases hd : d = '0'
  · subst hd
    cases ds with
    | nil => rfl
    | cons d ds => exact absurd rfl (h.no_zero d ds)
  · rw [Json.wholeDigits?, digits?_append h.digits h.ne_nil hrest]
    exact fun cs heq => hd (List.cons.inj heq).1

/-- A whole number does not begin with a minus. -/
theorem Whole.ne_minus (h : Whole whole) (cs ds : List Char) : whole ++ cs ≠ '-' :: ds := by
  obtain ⟨d, rest, rfl⟩ := List.exists_cons_of_ne_nil h.ne_nil
  have hd := h.digits d (List.mem_cons_self ..)
  intro heq
  rw [(List.cons.inj heq).1] at hd
  exact absurd hd (by decide)

/-- Where a number stops there are no places behind a point. -/
theorem fraction?_of_stops (h : Stops rest) : fraction? rest = some ([], rest) := by
  rw [fraction?]
  rintro cs rfl
  exact (h '.' rfl).2 (by decide)

theorem fraction?_point (hplaces : ∀ c ∈ places, c.isDigit = true) (hne : places ≠ [])
    (h : Stops rest) : fraction? ('.' :: (places ++ rest)) = some (places, rest) := by
  rw [fraction?, digits?_append hplaces hne fun c hc => (h c hc).1]

/-- Where a number stops there is no exponent. -/
theorem exponent?_of_stops (h : Stops rest) : exponent? rest = some (0, rest) := by
  cases rest with
  | nil => rfl
  | cons c cs =>
    have hc := (h c rfl).2
    rw [exponent?, if_neg]
    simp only [List.mem_cons, List.not_mem_nil, or_false, not_or] at hc
    simp [hc.2.1, hc.2.2]

/-- A number is read part by part. -/
theorem Whole.number? (h : Whole whole) (negative : Bool)
    (hpoint : ∀ c ∈ (fraction ++ rest).head?, c.isDigit = false)
    (hfraction : fraction? (fraction ++ rest) = some (places, rest)) (hrest : Stops rest) :
    number? (signed negative (whole ++ fraction) ++ rest) =
      some (.decimal negative (valueOfDigits (whole ++ places)) (-places.length), rest) := by
  have hexponent := exponent?_of_stops hrest
  cases negative with
  | true =>
    rw [signed, if_pos rfl, List.cons_append, List.append_assoc, Json.number?]
    simp only [h.wholeDigits? hpoint, hfraction, hexponent, Option.bind_some, Option.map_some,
      Int.zero_sub]
  | false =>
    rw [signed, if_neg Bool.false_ne_true, List.append_assoc, Json.number?]
    · simp only [h.wholeDigits? hpoint, hfraction, hexponent, Option.bind_some, Option.map_some,
        Int.zero_sub]
    · exact fun ds heq => h.ne_minus _ _ heq

/-- A number that has been written is read back. -/
theorem number?_text (h : (Numeral.finite negative coefficient exponent).Normal)
    (hrest : Stops rest) :
    number? ((Numeral.finite negative coefficient exponent).text ++ rest) =
      some (.finite negative coefficient exponent, rest) := by
  -- with places behind the point, or with zeros instead of them
  rcases Int.lt_or_le exponent 0 with hneg | hnonneg
  · obtain ⟨whole, places, hparts, hnumber, count, hvalue, hlength⟩ :=
      Toml.exists_parts_of_neg h hneg
    have hwhole : Whole whole := ⟨hparts.whole_digits, hparts.whole_ne, hparts.no_zero⟩
    have htext : (Numeral.finite negative coefficient exponent).text =
        signed negative (whole ++ '.' :: places) := by
      rw [← hnumber, Toml.number, Numeral.isWhole, if_neg (by simpa using hneg)]
      exact fun h => by cases h
    rw [htext, hwhole.number? negative (by simp) (fraction?_point hparts.places_digits
      hparts.places_ne hrest) hrest, hvalue, hlength, Numeral.decimal_mul_tenTo h]
  · have hwhole : Whole (digits coefficient ++ List.replicate exponent.toNat '0') :=
      ⟨fun _ => Numeral.isDigit_of_mem_digits_zeros, Numeral.digits_zeros_ne_nil,
        Numeral.digits_zeros_ne_zero h⟩
    have hpoint : ∀ c ∈ ([] ++ rest).head?, c.isDigit = false := fun c hc => (hrest c hc).1
    have hread := hwhole.number? negative hpoint (fraction?_of_stops hrest) hrest
    have hdecimal := Numeral.decimal_mul_tenTo h exponent.toNat
    rw [Int.toNat_of_nonneg hnonneg, Int.sub_self] at hdecimal
    rw [List.append_nil, Numeral.valueOfDigits_append_zeros, Numeral.valueOfDigits_digits,
      List.length_nil, Int.natCast_zero, Int.neg_zero, hdecimal] at hread
    rw [Numeral.text, Numeral.positional, if_pos hnonneg, hread]

/-- What is read as a number begins with a digit or a minus sign. -/
theorem head_of_number? {found : Numeral × List Char} (h : number? rest = some found) :
    ∃ c cs, rest = c :: cs ∧ (c = '-' ∨ c.isDigit = true) := by
  cases rest with
  | nil => exact absurd h (by simp [number?, wholeDigits?, digits?])
  | cons c cs =>
    refine ⟨c, cs, rfl, or_iff_not_imp_left.mpr fun hminus => ?_⟩
    by_contra hdigit
    have hzero : c ≠ '0' := by
      rintro rfl
      exact hdigit rfl
    have hnone : wholeDigits? (c :: cs) = none := by
      have hspan : (c :: cs).span Char.isDigit = ([], c :: cs) :=
        Text.span_append_cons (fun _ hd => absurd hd List.not_mem_nil) (by simpa using hdigit) cs
      rw [wholeDigits?, digits?, hspan]
      exact fun ds heq => hzero (List.cons.inj heq).1
    rw [number?, hnone] at h
    · exact absurd h (by simp)
    · exact fun ds heq => hminus (List.cons.inj heq).1

end Numbers

end Wireframe.Json
