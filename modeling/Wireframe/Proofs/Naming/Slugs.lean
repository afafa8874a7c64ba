import Mathlib.Data.List.Infix
import Wireframe.Naming

/-!
# Slugs of names

A slug is fixed by two things: the characters that it keeps, which are the small letters and digits
of the lower-case form of its name, and what stands in the gaps around them, which is a hyphen where
something else was and nothing where nothing was (`Naming.isSlugOf_slug`). A text is determined by
its kept characters and its gaps (`Text.eq_of_filter_of_gaps`), so a slug is its own slug.

There is one letter whose lower-case form depends on what is around it: `Σ` may become `ς` at the
end of a word. Neither form is kept in a slug, so a slug comes out the same from any lower-case form
of its name (`Text.slug_eq_of_lowerForm`).
-/

namespace Wireframe

namespace Text

/-! ### Lower-case forms -/

/-- Whether a text is a lower-case form of another one: that of each character in its place, where
`Σ` may also have the form that it takes at the end of a word. -/
inductive LowerForm : List Char → List Char → Prop
  | nil : LowerForm [] []
  | char (c : Char) {cs lowered : List Char} (h : LowerForm cs lowered) :
      LowerForm (c :: cs) (lowerChar c ++ lowered)
  | finalSigma {cs lowered : List Char} (h : LowerForm cs lowered) :
      LowerForm ('Σ' :: cs) ('ς' :: lowered)

/-- Lower-casing a text, sigma at the end of words aside, gives a lower form of it. -/
theorem lowerForm_lowerCase (cs : List Char) : LowerForm cs (lowerCase cs) := by
  induction cs with
  | nil => exact .nil
  | cons c cs ih => exact .char c ih

/-- What is made of the end of a text does not depend on what stands before. -/
theorem hyphenate_append_congr {as bs : List Char}
    (h : ∀ inGap, hyphenate inGap as = hyphenate inGap bs) (front : List Char) (inGap : Bool) :
    hyphenate inGap (front ++ as) = hyphenate inGap (front ++ bs) := by
  induction front generalizing inGap with
  | nil => exact h inGap
  | cons c front ih => rw [List.cons_append, List.cons_append, hyphenate, hyphenate, ih, ih]

/-- The lower forms of a text have one slug: they differ in characters that become hyphens. -/
theorem LowerForm.hyphenate_eq {cs lowered : List Char} (h : LowerForm cs lowered)
    (inGap : Bool) : hyphenate inGap lowered = hyphenate inGap (lowerCase cs) := by
  induction h generalizing inGap with
  | nil => rfl
  | char c _ ih => exact hyphenate_append_congr ih (lowerChar c) inGap
  | @finalSigma cs lowered _ ih =>
    have hsigma : lowerChar 'Σ' = ['σ'] := by decide
    rw [lowerCase_cons, hsigma, List.singleton_append, hyphenate, hyphenate, ih, ih]
    rfl

/-- The slug of a name comes from any lower-case form of it. -/
theorem slug_eq_of_lowerForm {name lowered : List Char} (h : LowerForm name lowered) :
    slug name = hyphenate false lowered :=
  (h.hyphenate_eq false).symm

/-! ### Gaps -/

/-- What stands in front of the first kept character of a text, between each two that follow each
other, and behind the last one. -/
def gaps (cs : List Char) : List (List Char) := cs.splitOnP isSlugChar

/-- What a slug has for a gap: a hyphen, unless the gap is empty. -/
def bridge (gap : List Char) : List Char := if gap = [] then [] else ['-']

theorem gaps_cons (c : Char) (cs : List Char) :
    gaps (c :: cs) = if isSlugChar c then [] :: gaps cs else (gaps cs).modifyHead (c :: ·) :=
  List.splitOnP_cons_eq_if_modifyHead c cs

theorem bridge_bridge (gap : List Char) : bridge (bridge gap) = bridge gap := by
  unfold bridge
  split <;> rfl

/-- A text is determined by its kept characters and its gaps. -/
theorem eq_of_filter_of_gaps {as bs : List Char}
    (hkept : as.filter isSlugChar = bs.filter isSlugChar) (hgaps : gaps as = gaps bs) :
    as = bs := by
  rw [gaps, gaps] at hgaps
  rw [← List.splitOnP_spec (p := isSlugChar) as, ← List.splitOnP_spec (p := isSlugChar) bs, hkept,
    hgaps]

/-- Each gap has become a hyphen unless it was empty, but the first one is left empty where its
hyphen stands in front of the text. -/
theorem gaps_hyphenate (inGap : Bool) (cs : List Char) : gaps (hyphenate inGap cs) =
    ((gaps cs).map bridge).modifyHead fun first => if inGap then [] else first := by
  induction cs generalizing inGap with
  | nil => cases inGap <;> rfl
  | cons c cs ih =>
    obtain ⟨first, rest, hgaps⟩ : ∃ first rest, gaps cs = first :: rest :=
      List.exists_cons_of_ne_nil (List.splitOnP_ne_nil isSlugChar cs)
    cases hc : isSlugChar c with
    | true => simp [hyphenate, hc, gaps_cons, ih, hgaps, bridge]
    | false =>
      -- the first gap is longer by a character, and its hyphen is written now or has been written
      have hhyphen : isSlugChar '-' = false := by decide
      cases inGap <;> simp [hyphenate, hc, gaps_cons, ih, hgaps, bridge, hhyphen]

/-- Every gap is bridged by one hyphen. -/
theorem gaps_slug {name lowered : List Char} (h : LowerForm name lowered) :
    gaps (slug name) = (gaps lowered).map bridge := by
  obtain ⟨first, rest, hgaps⟩ : ∃ first rest, gaps lowered = first :: rest :=
    List.exists_cons_of_ne_nil (List.splitOnP_ne_nil isSlugChar lowered)
  rw [slug_eq_of_lowerForm h, gaps_hyphenate, hgaps]
  rfl

theorem filter_slug {name lowered : List Char} (h : LowerForm name lowered) :
    (slug name).filter isSlugChar = lowered.filter isSlugChar := by
  rw [slug_eq_of_lowerForm h, filter_hyphenate]

/-! ### Hyphens -/

theorem ne_hyphen_of_isSlugChar {c : Char} (h : isSlugChar c = true) : c ≠ '-' := by
  rintro rfl
  exact absurd h (by decide)

/-- In a gap no further hyphen is begun. -/
theorem head?_hyphenate_ne (cs : List Char) : (hyphenate true cs).head? ≠ some '-' := by
  induction cs with
  | nil => simp [hyphenate]
  | cons c cs ih =>
    rw [hyphenate]
    split
    · next hc => exact fun hhead => ne_hyphen_of_isSlugChar hc (Option.some_inj.mp hhead)
    · exact ih

/-- No two hyphens stand together in a slug. -/
theorem not_double_hyphenate (inGap : Bool) (cs : List Char) :
    ¬ ['-', '-'] <:+: hyphenate inGap cs := by
  fun_induction hyphenate inGap cs with
  | case1 => simp
  | case2 inGap c cs hc ih =>
    rw [List.infix_cons_iff]
    rintro (hstart | hinfix)
    · exact ne_hyphen_of_isSlugChar hc (List.cons_prefix_cons.mp hstart).1.symm
    · exact ih hinfix
  | case3 c cs hc ih => exact ih
  | case4 inGap c cs hc hgap ih =>
    rw [List.infix_cons_iff]
    rintro (hstart | hinfix)
    · -- the rest of the gap has its hyphen, so a kept character comes next
      obtain ⟨after, hafter⟩ := (List.cons_prefix_cons.mp hstart).2
      exact head?_hyphenate_ne cs (by rw [← hafter]; rfl)
    · exact ih hinfix

/-! ### Slugs of slugs -/

theorem isSlugChar_iff {c : Char} : isSlugChar c = true ↔
    97 ≤ c.toNat ∧ c.toNat ≤ 122 ∨ 48 ≤ c.toNat ∧ c.toNat ≤ 57 := by
  simp [isSlugChar, Char.le_def, UInt32.le_iff_toNat_le]

theorem isAlphanum_eq (c : Char) : c.isAlphanum = (c.isUpper || c.isLower || c.isDigit) := rfl

/-- What a slug keeps are letters and digits. -/
theorem isAlphanum_of_isSlugChar {c : Char} (h : isSlugChar c = true) : c.isAlphanum = true := by
  rw [isSlugChar, Bool.or_eq_true] at h
  rw [isAlphanum_eq, Bool.or_eq_true, Bool.or_eq_true]
  exact h.imp_left .inr

/-- What a slug is made of is its own lower-case form. -/
theorem lowerChar_of_isSlugChar {c : Char} (h : isSlugChar c = true ∨ c = '-') :
    lowerChar c = [c] := by
  have hcodes : ∀ n ∈ List.range' 97 26 ++ List.range' 48 10,
      lowerChar (Char.ofNat n) = [Char.ofNat n] := by decide +kernel
  rcases h with h | rfl
  · have hc := hcodes c.toNat (by
      rw [isSlugChar_iff] at h
      simp only [List.mem_append, List.mem_range'_1]
      omega)
    rwa [Char.ofNat_toNat] at hc
  · decide

/-- A slug is in lower case. -/
theorem lowerCase_slug (name : List Char) : lowerCase (slug name) = slug name := by
  have hchars : ∀ c ∈ slug name, lowerChar c = [c] := fun _ hc =>
    lowerChar_of_isSlugChar (mem_hyphenate hc)
  rw [lowerCase, List.flatMap_congr hchars, List.flatMap_singleton']

/-- A slug is its own slug. -/
theorem slug_slug (name : List Char) : slug (slug name) = slug name := by
  have hform : LowerForm (slug name) (slug name) := by
    have hlower := lowerForm_lowerCase (slug name)
    rwa [lowerCase_slug] at hlower
  refine eq_of_filter_of_gaps (filter_slug hform) ?_
  rw [gaps_slug hform, gaps_slug (lowerForm_lowerCase name), List.map_map]
  exact List.map_congr_left fun gap _ => bridge_bridge gap

end Text

namespace Naming

open Text

/-- Whether a text is the slug of a name. -/
structure IsSlugOf (name slug : String) : Prop where
  /-- It is made of small letters and digits, which are kept, and hyphens. -/
  made : ∀ c ∈ slug.toList, isSlugChar c = true ∨ c = '-'
  /-- No two hyphens stand side by side. -/
  not_double : ¬ ['-', '-'] <:+: slug.toList
  /-- The letters and digits are those of the name in lower case, in the same order. -/
  kept : ∀ lowered, LowerForm name.toList lowered →
    slug.toList.filter isSlugChar = lowered.filter isSlugChar
  /-- In front of them, between each two of them and behind them is a hyphen exactly where
  something else is in the name in lower case. -/
  gaps : ∀ lowered, LowerForm name.toList lowered →
    Text.gaps slug.toList = (Text.gaps lowered).map bridge
  /-- It is its own slug. -/
  stable : Naming.slug slug = slug

/-- **What the slug of a name is**, whatever characters the name is made of. -/
theorem isSlugOf_slug (name : String) : IsSlugOf name (slug name) := by
  have hslug : (slug name).toList = Text.slug name.toList := String.toList_ofList
  constructor
  · rw [hslug]
    exact fun c hc => mem_hyphenate hc
  · rw [hslug]
    exact not_double_hyphenate false _
  · rw [hslug]
    exact fun lowered h => filter_slug h
  · rw [hslug]
    exact fun lowered h => gaps_slug h
  · rw [slug, hslug, slug_slug, slug]

/-- Hyphens of the name and a letter whose lower-case form is no letter of a slug. -/
example : slug "--Été 2024 -- ΟΔΟΣ!" = "-t-2024-" := by decide

end Naming

end Wireframe
