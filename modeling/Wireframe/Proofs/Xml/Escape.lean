import Wireframe.Proofs.Xml.Exactness

/-!
# Escaped text

Escaping makes text safe wherever a document may hold it, and nothing is lost by it except what
a document cannot hold: `decode_escape` gives the text back without its illegal characters, and so
texts without such characters can be told apart when they are escaped (`keepsText_escape`).

`Escaped` is the form that safe text has: characters that are no markup, and entities. It is
closed under joining, it may stand between quotes of either kind (`Escaped.isValue`) and between
tags (`Escaped.isContent`), and every ampersand in it begins an entity
(`Escaped.namesEntities`). Decoding reads the same characters out of it as the grammar does.
-/

namespace Wireframe.Xml

/-- Whether a character may stand for itself anywhere in a document. -/
def isPlain (c : Char) : Bool := isChar c && !(entities.map (·.2)).contains c

/-- Text in which every character is plain or written as an entity. -/
inductive Escaped : List Char → Prop
  | nil : Escaped []
  | plain {c : Char} {cs : List Char} : isPlain c = true → Escaped cs → Escaped (c :: cs)
  | entity {name cs : List Char} {c : Char} :
      (name, c) ∈ entities → Escaped cs → Escaped ('&' :: name ++ ';' :: cs)

/-- Replaces entities by their characters, from left to right, after leaving out the next
characters. -/
def decodeAfter : ℕ → List Char → List Char
  | _, [] => []
  | skip + 1, _ :: cs => decodeAfter skip cs
  | 0, c :: cs =>
    match if c = '&' then entityAt? cs else none with
    | some (d, rest) => d :: decodeAfter (cs.length - rest.length) cs
    | none => c :: decodeAfter 0 cs

/-- The text that escaped text stands for: each entity is replaced by its character. -/
def decode (cs : List Char) : List Char := decodeAfter 0 cs

/-! ### Decoding -/

private theorem decodeAfter_eq_drop (skip : ℕ) (cs : List Char) :
    decodeAfter skip cs = decode (cs.drop skip) := by
  induction skip generalizing cs with
  | zero => rfl
  | succ skip ih =>
    cases cs with
    | nil => rfl
    | cons c cs => exact ih cs

theorem decode_cons_of_ne {c : Char} (h : c ≠ '&') (cs : List Char) :
    decode (c :: cs) = c :: decode cs := by
  rw [decode, decodeAfter, if_neg h, decode]

/-- A reference is decoded to the character it names. -/
theorem decode_entity {name : List Char} {c : Char} (h : (name, c) ∈ entities)
    (cs : List Char) : decode ('&' :: (name ++ ';' :: cs)) = c :: decode cs := by
  have hlength : (name ++ ';' :: cs).length - cs.length = (name ++ [';']).length := by
    simp only [List.length_append, List.length_cons, List.length_nil]
    omega
  have hdrop : (name ++ ';' :: cs).drop (name ++ [';']).length = cs := by
    rw [show name ++ ';' :: cs = (name ++ [';']) ++ cs by simp, List.drop_left]
  rw [decode, decodeAfter, if_pos rfl, entityAt?_append h]
  change c :: decodeAfter ((name ++ ';' :: cs).length - cs.length) (name ++ ';' :: cs) = _
  -- the name and the semicolon are what is left out
  rw [hlength, decodeAfter_eq_drop, hdrop]

/-! ### Escaped text -/

theorem not_mem_markup_of_isPlain {c : Char} (h : isPlain c = true) :
    isChar c = true ∧ c ≠ '&' ∧ c ≠ '<' ∧ c ≠ '>' ∧ c ≠ '"' ∧ c ≠ '\'' := by
  simpa [isPlain, entities] using h

/-- Plain text needs no escaping. -/
theorem Escaped.of_isPlain {cs : List Char} (h : cs.all isPlain = true) : Escaped cs := by
  induction cs with
  | nil => exact .nil
  | cons c cs ih =>
    rw [List.all_cons, Bool.and_eq_true] at h
    exact .plain h.1 (ih h.2)

/-- Escaped texts stay escaped side by side. -/
theorem Escaped.append {as bs : List Char} (ha : Escaped as) (hb : Escaped bs) :
    Escaped (as ++ bs) := by
  induction ha with
  | nil => exact hb
  | plain hc _ ih => exact .plain hc ih
  | entity hname _ ih =>
    rw [List.append_assoc, List.cons_append]
    exact .entity hname ih

/-- Between quotes, escaped text is read as what it stands for. -/
theorem Escaped.isValue {cs : List Char} (h : Escaped cs) : IsValue '"' (decode cs) cs := by
  induction h with
  | nil => exact .nil
  | @plain c cs hc _ ih =>
    obtain ⟨hchar, hamp, hlt, -, hquote, -⟩ := not_mem_markup_of_isPlain hc
    rw [decode_cons_of_ne hamp]
    exact .cons (.plain hchar hlt hamp) (by simpa using hquote) ih
  | @entity name cs c hname _ ih =>
    rw [List.cons_append, decode_entity hname]
    have hcons : IsValue '"' (c :: decode cs) (('&' :: name ++ [';']) ++ cs) :=
      .cons (.entity hname) (by simp) ih
    simpa using hcons

/-- Escaped text has characters of XML only. -/
theorem Escaped.isChar {cs : List Char} (h : Escaped cs) : ∀ c ∈ cs, isChar c = true := by
  induction h with
  | nil => simp
  | plain hc _ ih => simpa using ⟨(not_mem_markup_of_isPlain hc).1, ih⟩
  | @entity name cs c hname _ ih =>
    have hamp : Xml.isChar '&' = true ∧ Xml.isChar ';' = true := by decide
    have := List.all_eq_true.mp (isChar_of_mem_entities hname).1
    simp only [List.mem_append, List.mem_cons]
    rintro d ((rfl | hd) | rfl | hd)
    exacts [hamp.1, this d hd, hamp.2, ih d hd]

/-- A character of markup, other than the two that an entity is written with, does not stand in
escaped text. -/
theorem Escaped.not_mem {cs : List Char} (h : Escaped cs) {d : Char} (hplain : isPlain d = false)
    (hlower : d.isLower = false) (hmarks : d ∉ ['&', ';']) : d ∉ cs := by
  rw [List.mem_cons, List.mem_singleton, not_or] at hmarks
  induction h with
  | nil => exact List.not_mem_nil
  | plain hc _ ih =>
    rw [List.mem_cons, not_or]
    exact ⟨fun heq => absurd (heq ▸ hc) (by simp [hplain]), ih⟩
  | @entity name cs c hname _ ih =>
    have : d ∉ name := not_mem_of_mem_entities hname hlower
    simp [this, ih, hmarks]

/-- Between tags, escaped text is read as what it stands for. -/
theorem Escaped.isContent {cs : List Char} (h : Escaped cs) :
    IsContent ((decode cs).map .char) cs := by
  -- no closing bracket stands in escaped text, so `]]>` cannot
  have hbracket : ∀ {cs : List Char}, Escaped cs → ¬ "]]>".toList <+: cs := fun hcs hstart =>
    hcs.not_mem (d := '>') (by decide) (by decide) (by decide) (hstart.subset (by decide))
  induction h with
  | nil => exact .nil
  | @plain c cs hc hcs ih =>
    obtain ⟨hchar, hamp, hlt, -⟩ := not_mem_markup_of_isPlain hc
    rw [decode_cons_of_ne hamp]
    exact .char (.plain hchar hlt hamp) (hbracket (.plain hc hcs)) ih
  | @entity name cs c hname hcs ih =>
    have hsplit : '&' :: name ++ ';' :: cs = ('&' :: name ++ [';']) ++ cs := by simp
    rw [List.cons_append, decode_entity hname, ← List.cons_append, hsplit]
    exact .char (.entity hname) (hsplit ▸ hbracket (.entity hname hcs)) ih

/-! ### Ampersands -/

theorem namesEntities_nil : NamesEntities [] := fun after h => absurd h (by simp)

/-- An ampersand names an entity if one stands right behind it. -/
theorem namesEntities_cons {c : Char} {cs : List Char}
    (hc : c = '&' → ∃ e ∈ entities, e.1 ++ [';'] <+: cs) (h : NamesEntities cs) :
    NamesEntities (c :: cs) := by
  intro after hafter
  rcases List.suffix_cons_iff.mp hafter with heq | hsuffix
  · injection heq with hamp hcs
    exact hcs ▸ hc hamp.symm
  · exact h after hsuffix

theorem namesEntities_cons_of_ne {c : Char} {cs : List Char} (hc : c ≠ '&')
    (h : NamesEntities cs) : NamesEntities (c :: cs) :=
  namesEntities_cons (fun hamp => absurd hamp hc) h

/-- No reference is torn apart, or made up, where two texts meet. -/
theorem NamesEntities.append {as bs : List Char} (ha : NamesEntities as)
    (hb : NamesEntities bs) : NamesEntities (as ++ bs) := by
  induction as with
  | nil => exact hb
  | cons c as ih =>
    refine namesEntities_cons (fun hamp => ?_) (ih fun after h => ha after (h.trans (by simp)))
    obtain ⟨e, he, hstart⟩ := ha as (by simp [hamp])
    exact ⟨e, he, hstart.trans (List.prefix_append as bs)⟩

theorem namesEntities_of_not_mem {cs : List Char} (h : '&' ∉ cs) : NamesEntities cs :=
  fun _ hafter => absurd (hafter.subset (List.mem_cons_self ..)) h

/-- In escaped text every ampersand names an entity. -/
theorem Escaped.namesEntities {cs : List Char} (h : Escaped cs) : NamesEntities cs := by
  induction h with
  | nil => exact namesEntities_nil
  | plain hc _ ih =>
    exact namesEntities_cons_of_ne (not_mem_markup_of_isPlain hc).2.1 ih
  | @entity name cs c hname _ ih =>
    refine namesEntities_cons (fun _ => ⟨_, hname, ⟨cs, by simp⟩⟩) ?_
    have hamp : '&' ∉ name := not_mem_of_mem_entities hname (by decide)
    refine (namesEntities_of_not_mem hamp).append ?_
    exact namesEntities_cons_of_ne (by decide) ih

/-! ### Escaping -/

/-- The characters that the escaping keeps are those of XML 1.0. -/
theorem isLegal_eq_isChar (c : Char) : isLegal c = isChar c := by
  -- a character is no surrogate, so the gap between the ranges does not matter
  have hvalid : c.toNat < 0xD800 ∨ 0xDFFF < c.toNat ∧ c.toNat < 0x110000 := c.valid
  have heq : ∀ d : Char, c = d ↔ c.toNat = d.toNat := fun d => Char.toNat_inj.symm
  rw [Bool.eq_iff_iff]
  simp only [isLegal, isChar, inRanges, List.any_cons, List.any_nil, Bool.or_eq_true,
    Bool.and_eq_true, beq_iff_eq, bne_iff_ne, decide_eq_true_eq, Bool.or_false, heq]
  simp only [show '\t'.toNat = 9 from rfl, show '\n'.toNat = 10 from rfl,
    show '\r'.toNat = 13 from rfl]
  omega

/-- The five entities are those that the escaping uses. -/
theorem mem_entities_iff {c : Char} {name : List Char} :
    (name, c) ∈ entities ↔ entity? c = some name := by
  simp only [entities, List.mem_cons, Prod.mk.injEq, List.not_mem_nil, or_false]
  constructor
  · rintro (⟨rfl, rfl⟩ | ⟨rfl, rfl⟩ | ⟨rfl, rfl⟩ | ⟨rfl, rfl⟩ | ⟨rfl, rfl⟩) <;> rfl
  · intro h
    unfold entity? at h
    split at h <;> simp_all

/-- How a character is written: as an entity, as itself, or not at all. -/
theorem escapeChar_cases (c : Char) :
    (∃ name, (name, c) ∈ entities ∧ escapeChar c = '&' :: name ++ [';']) ∨
      (isPlain c = true ∧ escapeChar c = [c]) ∨ (isChar c = false ∧ escapeChar c = []) := by
  rw [escapeChar]
  cases hentity : entity? c with
  | some name => exact .inl ⟨name, mem_entities_iff.mpr hentity, rfl⟩
  | none =>
    have hnone : ¬ c ∈ entities.map (·.2) := by
      rintro hmem
      obtain ⟨⟨name, d⟩, he, rfl⟩ := List.mem_map.mp hmem
      rw [mem_entities_iff.mp he] at hentity
      exact absurd hentity (by simp)
    rw [isLegal_eq_isChar]
    cases hchar : isChar c with
    | true => exact .inr (.inl ⟨by simp [isPlain, hchar, hnone], rfl⟩)
    | false => exact .inr (.inr ⟨rfl, rfl⟩)

/-- The text that the escaping makes is escaped. -/
theorem escaped_escape (cs : List Char) : Escaped (escape cs) := by
  induction cs with
  | nil => exact .nil
  | cons c cs ih =>
    refine Escaped.append ?_ ih
    rcases escapeChar_cases c with ⟨name, hname, hc⟩ | ⟨hplain, hc⟩ | ⟨-, hc⟩ <;> rw [hc]
    · exact .entity hname .nil
    · exact .plain hplain .nil
    · exact .nil

/-- Decoding gives escaped text back, without the characters that a document cannot hold. -/
theorem decode_escape (cs : List Char) : decode (escape cs) = cs.filter isChar := by
  induction cs with
  | nil => rfl
  | cons c cs ih =>
    rw [escape, List.flatMap_cons, ← escape, List.filter_cons]
    rcases escapeChar_cases c with ⟨name, hname, hc⟩ | ⟨hplain, hc⟩ | ⟨hchar, hc⟩ <;> rw [hc]
    · have hsplit : '&' :: name ++ [';'] ++ escape cs = '&' :: (name ++ ';' :: escape cs) := by
        simp
      rw [hsplit, decode_entity hname, ih, if_pos (isChar_of_mem_entities hname).2]
    · obtain ⟨hchar, hamp, -⟩ := not_mem_markup_of_isPlain hplain
      rw [List.cons_append, List.nil_append, decode_cons_of_ne hamp, ih, if_pos hchar]
    · rw [List.nil_append, ih, hchar]
      rfl

/-! ### What escaping keeps -/

/-- Whether a character cannot stand in a document: a control character other than tab, line feed
and carriage return, or one of two code points that are no characters. -/
def IsIllegal (c : Char) : Prop :=
  c.toNat < 0x20 ∧ c ∉ ['\t', '\n', '\r'] ∨ c.toNat = 0xFFFE ∨ c.toNat = 0xFFFF

instance (c : Char) : Decidable (IsIllegal c) :=
  inferInstanceAs (Decidable (_ ∧ _ ∨ _ ∨ _))

/-- The illegal characters are those that are none of XML. -/
theorem isIllegal_iff {c : Char} : IsIllegal c ↔ isChar c = false := by
  have heq : ∀ d : Char, c = d ↔ c.toNat = d.toNat := fun d => Char.toNat_inj.symm
  rw [← isLegal_eq_isChar]
  simp only [IsIllegal, isLegal, List.mem_cons, List.not_mem_nil, or_false, not_or,
    Bool.or_eq_false_iff, Bool.and_eq_false_iff, beq_eq_false_iff_ne, bne_eq_false_iff_eq,
    decide_eq_false_iff_not, ne_eq, heq]
  simp only [show '\t'.toNat = 9 from rfl, show '\n'.toNat = 10 from rfl,
    show '\r'.toNat = 13 from rfl]
  omega

/-- What escaping keeps of a text, and what it keeps out of a document. -/
structure KeepsText (cs : List Char) : Prop where
  /-- Decoding gives the text back without its illegal characters. -/
  decode_eq : decode (escape cs) = cs.filter fun c => ¬ IsIllegal c
  /-- No other character of markup than the ampersand is left, and no quote. -/
  no_markup : '<' ∉ escape cs ∧ '>' ∉ escape cs ∧ '"' ∉ escape cs ∧ '\'' ∉ escape cs
  /-- Every ampersand begins one of the entities. -/
  namesEntities : NamesEntities (escape cs)
  /-- No other text of legal characters is escaped in the same way. -/
  injective : (∀ c ∈ cs, ¬ IsIllegal c) →
    ∀ ds, (∀ d ∈ ds, ¬ IsIllegal d) → escape ds = escape cs → ds = cs

/-- **Escaping keeps texts**: they are given back by decoding but for their illegal characters, and
nothing of them can be taken for markup. -/
theorem keepsText_escape (cs : List Char) : KeepsText cs := by
  have hdecode (ds : List Char) : decode (escape ds) = ds.filter fun c => ¬ IsIllegal c := by
    rw [decode_escape]
    exact List.filter_congr fun c _ => by simp [isIllegal_iff]
  have hsafe {d : Char} (hplain : isPlain d = false) (hlower : d.isLower = false)
      (hmarks : d ∉ ['&', ';']) : d ∉ escape cs :=
    (escaped_escape cs).not_mem hplain hlower hmarks
  refine ⟨hdecode cs, ?_, (escaped_escape cs).namesEntities, fun hcs ds hds heq => ?_⟩
  · exact ⟨hsafe (by decide) (by decide) (by decide), hsafe (by decide) (by decide) (by decide),
      hsafe (by decide) (by decide) (by decide), hsafe (by decide) (by decide) (by decide)⟩
  · -- a text of legal characters is what its escaped form is decoded to
    have hself {as : List Char} (has : ∀ c ∈ as, ¬ IsIllegal c) : decode (escape as) = as := by
      rw [hdecode, List.filter_eq_self]
      exact fun c hc => decide_eq_true (has c hc)
    rw [← hself hds, heq, hself hcs]

/-- What looks like an entity is escaped once more, so the two can be told apart. -/
example : escape "<".toList = "&lt;".toList ∧ escape "&lt;".toList = "&amp;lt;".toList := by decide

end Wireframe.Xml
