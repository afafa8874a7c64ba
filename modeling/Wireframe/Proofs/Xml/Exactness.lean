import Mathlib.Data.List.TakeDrop
import Wireframe.Proofs.Xml.Reader

/-!
# The reader is exact

`parse?` finds a root in a text iff the grammar derives the text as a document with that root
(`parse?_eq_some_iff`). So a text has one root at most (`IsDocument.unique`), and what the
reader says of a text is what the grammar says of it.

For every part of the reader there are two lemmas. What is found was written there
(`_sound`), by induction on the bound on the steps; what the grammar derives is found
(`_append`), by induction on the derivation. The second needs that the text behind does not
carry on what has been read: a name or white space (`Closes`), or content (`Ends`).
-/

namespace Wireframe.Xml

/-! ### Units and values -/

/-- An entity that the reader finds is one of the five and stands in front. -/
theorem entityAt?_sound {c : Char} {cs rest : List Char}
    (h : entityAt? cs = some (c, rest)) :
    ∃ name, (name, c) ∈ entities ∧ cs = name ++ ';' :: rest := by
  obtain ⟨e, he, hfound⟩ := List.exists_of_findSome?_eq_some h
  split at hfound
  · next hstart =>
    obtain ⟨after, rfl⟩ := List.isPrefixOf_iff_prefix.mp hstart
    simp only [Option.some.injEq, Prod.mk.injEq] at hfound
    obtain ⟨rfl, rfl⟩ := hfound
    exact ⟨e.1, he, by simp⟩
  · simp at hfound

theorem entityAt?_append {c : Char} {name : List Char} (h : (name, c) ∈ entities)
    (rest : List Char) : entityAt? (name ++ ';' :: rest) = some (c, rest) := by
  simp only [entities, List.mem_cons, Prod.mk.injEq, List.not_mem_nil, or_false] at h
  rcases h with ⟨rfl, rfl⟩ | ⟨rfl, rfl⟩ | ⟨rfl, rfl⟩ | ⟨rfl, rfl⟩ | ⟨rfl, rfl⟩ <;> rfl

theorem IsUnit.ne_nil {c : Char} {w : List Char} (h : IsUnit c w) : w ≠ [] := by
  cases h <;> simp

/-- A character that the reader finds is written in front, as itself or as an entity. -/
theorem unit?_sound {c : Char} {cs rest : List Char} (h : unit? cs = some (c, rest)) :
    ∃ w, IsUnit c w ∧ cs = w ++ rest := by
  cases cs with
  | nil => simp [unit?] at h
  | cons d ds =>
    simp only [unit?] at h
    split_ifs at h with hamp hlt
    · obtain ⟨name, hname, rfl⟩ := entityAt?_sound h
      exact ⟨'&' :: name ++ [';'], .entity hname, by simp [hamp]⟩
    · simp only [Option.some.injEq, Prod.mk.injEq] at h
      obtain ⟨rfl, rfl⟩ := h
      simp only [not_or, Bool.not_eq_false] at hlt
      exact ⟨[d], .plain hlt.2 hlt.1 hamp, rfl⟩

/-- A character that is written in front is found. -/
theorem unit?_append {c : Char} {w : List Char} (h : IsUnit c w) (rest : List Char) :
    unit? (w ++ rest) = some (c, rest) := by
  cases h with
  | plain hc hlt hamp => simp [unit?, hc, hlt, hamp]
  | entity hname =>
    simp only [List.cons_append, List.append_assoc, List.nil_append, unit?, if_true]
    exact entityAt?_append hname rest

/-- A value that the reader finds is derived by the grammar and ends with its quote. -/
private theorem value?_sound {quote : Char} {n : ℕ} {cs value rest : List Char}
    (h : value? quote n cs = some (value, rest)) :
    ∃ w, IsValue quote value w ∧ cs = w ++ quote :: rest := by
  induction n generalizing cs value with
  | zero => simp [value?] at h
  | succ n ih =>
    cases cs with
    | nil => simp [value?] at h
    | cons c cs =>
      simp only [value?] at h
      split_ifs at h with hquote
      · simp only [Option.some.injEq, Prod.mk.injEq] at h
        obtain ⟨rfl, rfl⟩ := h
        exact ⟨[], .nil, by simp [hquote]⟩
      · simp only [Option.bind_eq_some_iff, Option.map_eq_some_iff, Prod.mk.injEq] at h
        obtain ⟨first, hfirst, others, hothers, rfl, rfl⟩ := h
        obtain ⟨w, hw, hcs⟩ := unit?_sound hfirst
        obtain ⟨w', hw', hrest⟩ := ih hothers
        refine ⟨w ++ w', .cons hw ?_ hw', by rw [hcs, hrest, List.append_assoc]⟩
        rintro rfl
        injection hcs with hc
        exact hquote hc

/-- A value that the grammar derives is found up to its quote. -/
private theorem value?_append {quote : Char} (hquote : quote ≠ '&') {value w : List Char}
    (h : IsValue quote value w) {n : ℕ} (hn : w.length < n) (rest : List Char) :
    value? quote n (w ++ quote :: rest) = some (value, rest) := by
  induction h generalizing n with
  | nil =>
    obtain ⟨n, rfl⟩ := Nat.exists_eq_succ_of_ne_zero (by omega : n ≠ 0)
    simp [value?]
  | @cons c w value cs hunit hne _ ih =>
    obtain ⟨n, rfl⟩ := Nat.exists_eq_succ_of_ne_zero (by omega : n ≠ 0)
    have hcs : cs.length < n := by
      have := List.length_pos_iff.mpr hunit.ne_nil
      rw [List.length_append] at hn
      omega
    -- what is written for a character does not begin with the closing quote
    obtain ⟨d, ds, hd, hdq⟩ : ∃ d ds, w = d :: ds ∧ d ≠ quote := by
      cases hunit with
      | plain => exact ⟨c, [], rfl, fun h => hne (by rw [h])⟩
      | entity => exact ⟨'&', _, rfl, hquote.symm⟩
    have hread : unit? (d :: (ds ++ (cs ++ quote :: rest))) = some (c, cs ++ quote :: rest) := by
      simpa [hd] using unit?_append hunit (cs ++ quote :: rest)
    simp only [List.append_assoc, hd, List.cons_append, value?, if_neg hdq, hread,
      Option.bind_some, ih hcs, Option.map_some]

/-! ### Names -/

/-- White space ends a name. -/
theorem isNameChar_eq_false_of_isSpace {c : Char} (h : isSpace c = true) :
    isNameChar c = false := by
  simp only [isSpace, Bool.or_eq_true, beq_iff_eq] at h
  rcases h with ((rfl | rfl) | rfl) | rfl <;> decide

/-- A name does not begin with white space. -/
theorem isSpace_eq_false_of_isNameStart {c : Char} (h : isNameStart c = true) :
    isSpace c = false := by
  rw [Bool.eq_false_iff]
  intro hspace
  have := isNameChar_eq_false_of_isSpace hspace
  simp [isNameChar, h] at this

/-- What is dropped from a text ends where a character stops it. -/
private theorem dropWhile_append_of_stop {p : Char → Bool} {as rest : List Char}
    (has : as.all p = true) (hrest : ∀ c, rest.head? = some c → p c = false) :
    (as ++ rest).dropWhile p = rest := by
  rw [List.dropWhile_append_of_pos (by simpa using has)]
  cases rest with
  | nil => rfl
  | cons c cs => simp [hrest c rfl]

private theorem dropWhile_append_cons {p : Char → Bool} {as : List Char} (has : as.all p = true)
    {c : Char} (hc : p c = false) (cs : List Char) : (as ++ c :: cs).dropWhile p = c :: cs := by
  refine dropWhile_append_of_stop has fun d hd => ?_
  obtain rfl : c = d := by simpa using hd
  exact hc

/-- A name that the reader finds is a name and stands in front. -/
theorem name?_sound {cs name rest : List Char} (h : name? cs = some (name, rest)) :
    IsName name ∧ cs = name ++ rest := by
  rw [name?, List.span_eq_takeWhile_dropWhile] at h
  have hall : ∀ c ∈ cs.takeWhile isNameChar, isNameChar c = true :=
    List.all_eq_true.mp List.all_takeWhile
  have hcs := List.takeWhile_append_dropWhile (p := isNameChar) (l := cs)
  split at h
  · simp at h
  · next c name' rest' hspan =>
    rw [Prod.mk.injEq] at hspan
    obtain ⟨hname, hrest⟩ := hspan
    split_ifs at h with hc
    simp only [Option.some.injEq, Prod.mk.injEq] at h
    obtain ⟨rfl, rfl⟩ := h
    rw [hname] at hall
    exact ⟨⟨⟨c, name', rfl, hc⟩, hall⟩, by rw [← hcs, hname, hrest]⟩

/-- A name in front is found as a whole if no name character follows it. -/
theorem name?_append {name rest : List Char} (h : IsName name)
    (hrest : ∀ c, rest.head? = some c → isNameChar c = false) :
    name? (name ++ rest) = some (name, rest) := by
  obtain ⟨⟨c, cs, rfl, hc⟩, hall⟩ := h
  have hspan : (c :: cs ++ rest).span isNameChar = (c :: cs, rest) := by
    rw [List.span_eq_takeWhile_dropWhile, dropWhile_append_of_stop (by simpa using hall) hrest,
      List.takeWhile_append_of_pos hall]
    cases rest with
    | nil => simp
    | cons d ds => simp [hrest d rfl]
  rw [name?, hspan]
  simp [hc]

/-- White space does not carry on a name. -/
private theorem not_isNameChar_of_head?_append {space rest : List Char}
    (hspace : space.all isSpace = true)
    (hrest : ∀ c, rest.head? = some c → isNameChar c = false) :
    ∀ c, (space ++ rest).head? = some c → isNameChar c = false := by
  cases space with
  | nil => exact hrest
  | cons d ds =>
    intro c hc
    obtain rfl : d = c := by simpa using hc
    exact isNameChar_eq_false_of_isSpace (List.all_eq_true.mp hspace d (List.mem_cons_self ..))

/-! ### Tags -/

private theorem all_takeWhile_isSpace_append (cs : List Char) :
    ∃ space, space.all isSpace = true ∧ cs = space ++ cs.dropWhile isSpace :=
  ⟨cs.takeWhile isSpace, List.all_takeWhile, List.takeWhile_append_dropWhile.symm⟩

/-- A quoted value that the reader finds is derived by the grammar, in either kind of quotes. -/
private theorem quoted?_sound {cs value rest : List Char} (h : quoted? cs = some (value, rest)) :
    ∃ quote w, (quote = '"' ∨ quote = '\'') ∧ IsValue quote value w ∧
      cs = quote :: w ++ quote :: rest := by
  cases cs with
  | nil => simp [quoted?] at h
  | cons quote cs =>
    simp only [quoted?] at h
    split_ifs at h with hquote
    obtain ⟨w, hw, rfl⟩ := value?_sound h
    exact ⟨quote, w, hquote, hw, rfl⟩

/-- A quoted value that the grammar derives is found. -/
private theorem quoted?_append {quote : Char} (hquote : quote = '"' ∨ quote = '\'')
    {value w : List Char} (h : IsValue quote value w) (rest : List Char) :
    quoted? (quote :: w ++ quote :: rest) = some (value, rest) := by
  have hamp : quote ≠ '&' := by rcases hquote with rfl | rfl <;> decide
  rw [List.cons_append, quoted?, if_pos hquote]
  exact value?_append hamp h (by simp only [List.length_append]; omega) rest

/-- An attribute that the reader finds is derived by the grammar. -/
private theorem attribute?_sound {a : Binding} {cs rest : List Char}
    (h : attribute? cs = some (a, rest)) : ∃ w, IsAttribute a w ∧ cs = w ++ rest := by
  simp only [attribute?, Option.bind_eq_some_iff] at h
  obtain ⟨⟨name, behind⟩, hname, h⟩ := h
  obtain ⟨hisName, rfl⟩ := name?_sound hname
  obtain ⟨before, hbefore, hbehind⟩ := all_takeWhile_isSpace_append behind
  split at h
  · next cs heq =>
    obtain ⟨⟨value, rest'⟩, hvalue, h⟩ := Option.map_eq_some_iff.mp h
    simp only [Prod.mk.injEq] at h
    obtain ⟨rfl, rfl⟩ := h
    obtain ⟨after, hafter, hcs⟩ := all_takeWhile_isSpace_append cs
    obtain ⟨quote, w, hquote, hw, hread⟩ := quoted?_sound hvalue
    refine ⟨_, .mk hisName hbefore hafter hquote hw, ?_⟩
    rw [hbehind, heq, hcs, hread]
    simp
  · simp at h

/-- An attribute that the grammar derives is found. -/
private theorem attribute?_append {a : Binding} {w : List Char} (h : IsAttribute a w)
    (rest : List Char) : attribute? (w ++ rest) = some (a, rest) := by
  cases h with
  | @mk name value before after w quote hname hbefore hafter hquote hvalue =>
    have hread : name? (name ++ (before ++ '=' :: (after ++ quote :: w ++ quote :: rest))) =
        some (name, before ++ '=' :: (after ++ quote :: w ++ quote :: rest)) := by
      refine name?_append hname (not_isNameChar_of_head?_append hbefore fun c hc => ?_)
      obtain rfl : '=' = c := by simpa using hc
      decide
    have hbehind : (before ++ '=' :: (after ++ quote :: w ++ quote :: rest)).dropWhile isSpace =
        '=' :: (after ++ quote :: w ++ quote :: rest) :=
      dropWhile_append_cons hbefore (by decide) _
    have hinside : (after ++ quote :: w ++ quote :: rest).dropWhile isSpace =
        quote :: w ++ quote :: rest := by
      have hspace : isSpace quote = false := by rcases hquote with rfl | rfl <;> decide
      rw [List.append_assoc]
      exact dropWhile_append_cons hafter hspace _
    have hsplit : name ++ before ++ '=' :: after ++ quote :: w ++ [quote] ++ rest =
        name ++ (before ++ '=' :: (after ++ quote :: w ++ quote :: rest)) := by simp
    rw [hsplit, attribute?, hread]
    simp only [Option.bind_some, hbehind, hinside, quoted?_append hquote hvalue, Option.map_some]

/-- A list that carries on neither a name nor white space. -/
def Closes (rest : List Char) : Prop :=
  ∀ c, rest.head? = some c → isSpace c = false ∧ isNameChar c = false

/-- White space with an attribute behind it announces the attribute. -/
private theorem atAttribute_append {a : Binding} {space w : List Char} (hne : space ≠ [])
    (hspace : space.all isSpace = true) (h : IsAttribute a w) (rest : List Char) :
    atAttribute (space ++ (w ++ rest)) = true ∧
      (space ++ (w ++ rest)).dropWhile isSpace = w ++ rest := by
  obtain ⟨d, ds, rfl, hstart⟩ : ∃ d ds, w = d :: ds ∧ isNameStart d = true := by
    obtain ⟨⟨⟨d, ds, rfl, hd⟩, -⟩, -⟩ := h
    exact ⟨d, _, rfl, hd⟩
  have hdrop : (space ++ (d :: ds ++ rest)).dropWhile isSpace = d :: ds ++ rest :=
    dropWhile_append_cons hspace (isSpace_eq_false_of_isNameStart hstart) _
  refine ⟨?_, hdrop⟩
  obtain ⟨s, ss, rfl⟩ := List.exists_cons_of_ne_nil hne
  have hs : isSpace s = true := List.all_eq_true.mp hspace s (by simp)
  rw [atAttribute, hdrop]
  simp [hs, hstart]

/-- Attributes that the reader finds are derived by the grammar, with white space behind them. -/
private theorem attributes?_sound {n : ℕ} {as : List Binding} {cs rest : List Char}
    (h : attributes? n cs = some (as, rest)) :
    ∃ w space, IsAttributes as w ∧ space.all isSpace = true ∧ cs = w ++ space ++ rest := by
  induction n generalizing cs as with
  | zero => simp [attributes?] at h
  | succ n ih =>
    obtain ⟨space, hspace, hcs⟩ := all_takeWhile_isSpace_append cs
    rw [attributes?] at h
    split_ifs at h with hat
    · simp only [Option.bind_eq_some_iff, Option.map_eq_some_iff, Prod.mk.injEq] at h
      obtain ⟨⟨a, behind⟩, ha, ⟨others, rest'⟩, hothers, rfl, rfl⟩ := h
      obtain ⟨w, hw, hdrop⟩ := attribute?_sound ha
      obtain ⟨w', space', hw', hspace', rfl⟩ : ∃ w' space', IsAttributes others w' ∧
          space'.all isSpace = true ∧ behind = w' ++ space' ++ rest' := ih hothers
      -- an attribute is only looked for behind white space
      have hne : space ≠ [] := by
        rintro rfl
        rw [List.nil_append] at hcs
        rw [atAttribute, ← hcs, Bool.and_eq_true] at hat
        cases cs with
        | nil => simp at hat
        | cons c cs => simp [isSpace_eq_false_of_isNameStart (by simpa using hat.2)] at hat
      refine ⟨space ++ w ++ w', space', .cons hne hspace hw hw', hspace', ?_⟩
      rw [hcs, hdrop]
      simp
    · simp only [Option.some.injEq, Prod.mk.injEq] at h
      obtain ⟨rfl, rfl⟩ := h
      exact ⟨[], space, .nil, hspace, hcs⟩

/-- Attributes that the grammar derives are found, all of them. -/
private theorem attributes?_append {as : List Binding} {w space rest : List Char}
    (h : IsAttributes as w) (hspace : space.all isSpace = true) (hrest : Closes rest) {n : ℕ}
    (hn : w.length < n) : attributes? n (w ++ (space ++ rest)) = some (as, rest) := by
  induction h generalizing n with
  | nil =>
    obtain ⟨n, rfl⟩ := Nat.exists_eq_succ_of_ne_zero (by omega : n ≠ 0)
    have hdrop : (space ++ rest).dropWhile isSpace = rest :=
      dropWhile_append_of_stop hspace fun c hc => (hrest c hc).1
    -- what closes a tag does not begin a name, so no further attribute is looked for
    have hat : atAttribute (space ++ rest) = false := by
      rw [atAttribute, hdrop]
      cases rest with
      | nil => simp
      | cons c cs =>
        have := (hrest c rfl).2
        simp only [isNameChar, Bool.or_eq_false_iff] at this
        simp [this.1]
    simp [attributes?, hat, hdrop]
  | @cons a as space' w cs hne hspace' ha _ ih =>
    obtain ⟨n, rfl⟩ := Nat.exists_eq_succ_of_ne_zero (by omega : n ≠ 0)
    have hcs : cs.length < n := by
      have := List.length_pos_iff.mpr hne
      simp only [List.length_append] at hn
      omega
    obtain ⟨hat, hdrop⟩ := atAttribute_append hne hspace' ha (cs ++ (space ++ rest))
    have hread := attribute?_append ha (cs ++ (space ++ rest))
    simp only [List.append_assoc, attributes?, hat, hdrop, hread, if_true, Option.bind_some,
      ih hcs, Option.map_some]

/-- A tag that the reader finds is derived by the grammar. -/
theorem tag?_sound {name cs rest : List Char} {attributes : List Binding}
    (h : tag? cs = some ((name, attributes), rest)) :
    ∃ w, IsTag name attributes w ∧ cs = w ++ rest := by
  simp only [tag?, Option.bind_eq_some_iff] at h
  obtain ⟨⟨name', behind⟩, hname, ⟨attributes', rest'⟩, hattributes, h⟩ := h
  obtain ⟨hisName, rfl⟩ := name?_sound hname
  obtain ⟨w, space, hw, hspace, rfl⟩ : ∃ w space, IsAttributes attributes' w ∧
      space.all isSpace = true ∧ behind = w ++ space ++ rest' := attributes?_sound hattributes
  split_ifs at h with hnodup
  simp only [Option.some.injEq, Prod.mk.injEq] at h
  obtain ⟨⟨rfl, rfl⟩, rfl⟩ := h
  exact ⟨_, .mk hisName hw hnodup hspace, by simp⟩

/-- A tag that the grammar derives is found if its end follows. -/
theorem tag?_append {name w rest : List Char} {attributes : List Binding}
    (h : IsTag name attributes w) (hrest : Closes rest) :
    tag? (w ++ rest) = some ((name, attributes), rest) := by
  cases h with
  | @mk w space _ hname hattributes hnodup hspace =>
    have hread : name? (name ++ (w ++ (space ++ rest))) = some (name, w ++ (space ++ rest)) := by
      refine name?_append hname ?_
      cases hattributes with
      | nil =>
        have hstop := not_isNameChar_of_head?_append hspace fun c hc => (hrest c hc).2
        exact hstop
      | cons hne hspace' =>
        intro c hc
        obtain ⟨d, ds, rfl⟩ := List.exists_cons_of_ne_nil hne
        obtain rfl : d = c := by simpa using hc
        exact isNameChar_eq_false_of_isSpace (List.all_eq_true.mp hspace' d (by simp))
    have hbindings : attributes? ((w ++ (space ++ rest)).length + 1) (w ++ (space ++ rest)) =
        some (attributes, rest) :=
      attributes?_append hattributes hspace hrest (by rw [List.length_append]; omega)
    simp only [List.append_assoc, tag?, hread, Option.bind_some, hbindings, if_pos hnodup]

/-! ### Comments and end tags -/

/-- A comment that the reader finds is one and ends with its closing mark. -/
private theorem comment?_sound {cs text rest : List Char} (h : comment? cs = some (text, rest)) :
    IsComment text ∧ cs = text ++ "-->".toList ++ rest := by
  fun_induction comment? cs generalizing text with
  | case1 => simp at h
  | case2 cs =>
    simp only [Option.some.injEq, Prod.mk.injEq] at h
    obtain ⟨rfl, rfl⟩ := h
    exact ⟨⟨by simp, by simp, by simp⟩, rfl⟩
  | case3 => simp at h
  | case4 c cs hend hdouble hc ih =>
    obtain ⟨⟨text', rest'⟩, hfound, h⟩ := Option.map_eq_some_iff.mp h
    simp only [Prod.mk.injEq] at h
    obtain ⟨rfl, rfl⟩ := h
    obtain ⟨hcomment, hcs⟩ := ih hfound
    refine ⟨⟨?_, ?_, ?_⟩, by rw [hcs]; simp⟩
    · intro d hd
      rcases List.mem_cons.mp hd with rfl | hd
      · exact hc
      · exact hcomment.isChar d hd
    · -- two hyphens would have ended the comment, or failed
      rw [List.infix_cons_iff]
      rintro (hstart | hinfix)
      · obtain ⟨after, hafter⟩ := hstart
        injection hafter with hhyphen htext
        exact hdouble (after ++ "-->".toList ++ rest') hhyphen.symm (by rw [hcs, ← htext]; rfl)
      · exact hcomment.not_double hinfix
    · cases text' with
      | nil =>
        intro hlast
        obtain rfl : c = '-' := by simpa using hlast
        exact hdouble ('-' :: '>' :: rest') rfl hcs
      | cons d ds => rw [List.getLast?_cons_cons]; exact hcomment.not_last
  | case5 => simp at h

/-- A comment that stands in front is found up to its first closing mark. -/
private theorem comment?_append {text : List Char} (h : IsComment text) (rest : List Char) :
    comment? (text ++ '-' :: '-' :: '>' :: rest) = some (text, rest) := by
  induction text with
  | nil => rfl
  | cons c cs ih =>
    have hcs : IsComment cs := by
      refine ⟨fun d hd => h.isChar d (List.mem_cons_of_mem _ hd), fun hinfix =>
        h.not_double (List.infix_cons hinfix), fun hlast => h.not_last ?_⟩
      cases cs with
      | nil => simp at hlast
      | cons d ds => rwa [List.getLast?_cons_cons]
    -- a hyphen here is followed by another character, which is none
    have hnext : ∀ tail, c = '-' → cs ++ '-' :: '-' :: '>' :: rest = '-' :: tail → False := by
      rintro tail rfl htail
      cases cs with
      | nil => exact h.not_last rfl
      | cons d ds =>
        injection htail with hd
        subst hd
        exact h.not_double ⟨[], ds, rfl⟩
    rw [List.cons_append, comment?, if_pos (h.isChar c (by simp)), ih hcs, Option.map_some]
    · exact fun tail => hnext ('>' :: tail)
    · exact hnext

private theorem afterEndTag?_sound {tag cs rest : List Char}
    (h : afterEndTag? tag cs = some rest) :
    ∃ space, space.all isSpace = true ∧ cs = "</".toList ++ tag ++ space ++ '>' :: rest := by
  unfold afterEndTag? at h
  split at h
  · next cs =>
    split_ifs at h with hstart
    obtain ⟨behind, rfl⟩ := List.isPrefixOf_iff_prefix.mp hstart
    obtain ⟨space, hspace, hbehind⟩ := all_takeWhile_isSpace_append behind
    rw [List.drop_left] at h
    split at h
    · next rest' heq =>
      obtain rfl : rest' = rest := by simpa using h
      refine ⟨space, hspace, ?_⟩
      rw [hbehind, heq]
      simp
    · simp at h
  · simp at h

private theorem afterEndTag?_append (tag : List Char) {space : List Char}
    (hspace : space.all isSpace = true) (rest : List Char) :
    afterEndTag? tag ('<' :: '/' :: (tag ++ (space ++ '>' :: rest))) = some rest := by
  have hdrop : (space ++ '>' :: rest).dropWhile isSpace = '>' :: rest :=
    dropWhile_append_cons hspace (by decide) _
  rw [afterEndTag?, if_pos (List.isPrefixOf_iff_prefix.mpr (List.prefix_append _ _)),
    List.drop_left, hdrop]
  rfl

/-! ### Content -/

/-- Where content may end: at an end tag, or at the end of the text. -/
def Ends (rest : List Char) : Prop := rest = [] ∨ ∃ tail, rest = '<' :: '/' :: tail

/-- A word without an opening bracket does not reach beyond the content that it begins in. -/
private theorem not_prefix_append {word as rest : List Char} (hend : Ends rest)
    (hword : '<' ∉ word) (h : ¬ word <+: as) : ¬ word <+: as ++ rest := by
  rcases hend with rfl | ⟨tail, rfl⟩
  · rwa [List.append_nil]
  · intro hstart
    rcases List.prefix_or_prefix_of_prefix hstart (List.prefix_append as _) with hle | hle
    · exact h hle
    · obtain ⟨ds, rfl⟩ := hle
      have htail := (List.prefix_append_right_inj as).mp hstart
      cases ds with
      | nil => exact h (by simp)
      | cons d ds =>
        obtain ⟨_, htail⟩ := htail
        injection htail with hd
        exact hword (by simp [hd])

private theorem content?_end {n : ℕ} {rest : List Char} (h : Ends rest) :
    content? (n + 1) rest = some ([], rest) := by
  rcases h with rfl | ⟨tail, rfl⟩ <;> rfl

/-- Content that the reader finds is derived by the grammar, up to an end of content. -/
private theorem content?_sound {n : ℕ} {items : List Item} {cs rest : List Char}
    (h : content? n cs = some (items, rest)) :
    ∃ w, IsContent items w ∧ cs = w ++ rest ∧ Ends rest := by
  induction n generalizing cs items rest with
  | zero => simp [content?] at h
  | succ n ih =>
    unfold content? at h
    split at h
    · simp at h
    · -- the end of the text
      obtain ⟨rfl, rfl⟩ := by simpa using h
      exact ⟨[], .nil, rfl, .inl rfl⟩
    · -- an end tag, which is left to the element around
      obtain ⟨rfl, rfl⟩ := by simpa using h
      exact ⟨[], .nil, rfl, .inr ⟨_, rfl⟩⟩
    · -- a comment
      next cs heq =>
      cases heq
      simp only [Option.bind_eq_some_iff, Option.map_eq_some_iff, Prod.mk.injEq] at h
      obtain ⟨⟨text, behind⟩, htext, ⟨others, rest'⟩, hothers, rfl, rfl⟩ := h
      obtain ⟨hcomment, rfl⟩ := comment?_sound htext
      obtain ⟨w, hw, hbehind, hend⟩ := ih hothers
      refine ⟨_, .comment hcomment hw, ?_, hend⟩
      rw [show behind = w ++ rest' from hbehind]
      simp
    · -- an element, written as one tag or with an end tag
      next cs _ _ heq =>
      cases heq
      rw [Option.bind_eq_some_iff] at h
      obtain ⟨⟨⟨tag, attributes⟩, behind⟩, htag, h⟩ := h
      obtain ⟨w, hw, rfl⟩ := tag?_sound htag
      split at h
      · next cs heq =>
        obtain ⟨⟨others, rest'⟩, hothers, h⟩ := Option.map_eq_some_iff.mp h
        obtain ⟨rfl, rfl⟩ := Prod.mk.inj h
        obtain ⟨w', hw', rfl, hend⟩ := ih hothers
        refine ⟨_, .empty hw hw', ?_, hend⟩
        rw [show behind = _ from heq]
        simp
      · next cs heq =>
        simp only [Option.bind_eq_some_iff, Option.map_eq_some_iff, Prod.mk.injEq] at h
        obtain ⟨⟨content, close⟩, hcontent, after, hafter, ⟨others, rest'⟩, hothers, rfl, rfl⟩ := h
        obtain ⟨inner, hinner, rfl, -⟩ := ih hcontent
        obtain ⟨space, hspace, hclose⟩ := afterEndTag?_sound hafter
        obtain ⟨w', hw', rfl, hend⟩ := ih hothers
        refine ⟨_, .element hw hinner hspace hw', ?_, hend⟩
        rw [show behind = _ from heq, show close = _ from hclose]
        simp
      · simp at h
    · -- a character
      next heq _ _ _ _ =>
      cases heq
      split_ifs at h with hbracket
      simp only [Option.bind_eq_some_iff, Option.map_eq_some_iff, Prod.mk.injEq] at h
      obtain ⟨⟨c, behind⟩, hc, ⟨others, rest'⟩, hothers, rfl, rfl⟩ := h
      obtain ⟨w, hw, rfl⟩ := unit?_sound hc
      obtain ⟨w', hw', hbehind, hend⟩ := ih hothers
      obtain rfl : behind = w' ++ rest' := hbehind
      refine ⟨_, .char hw (fun hstart => hbracket ?_) hw', by simp, hend⟩
      rw [List.isPrefixOf_iff_prefix, ← List.append_assoc]
      exact hstart.trans (List.prefix_append _ _)

/-- What follows the bracket of a tag tells it from an end tag and from a comment. -/
theorem IsTag.head {tag w : List Char} {attributes : List Binding} (h : IsTag tag attributes w) :
    ∃ c cs, w = c :: cs ∧ c ≠ '/' ∧ c ≠ '!' := by
  obtain ⟨⟨⟨c, cs, rfl, hc⟩, -⟩, -, -, -⟩ := h
  refine ⟨c, _, rfl, ?_, ?_⟩ <;> rintro rfl <;> exact absurd hc (by decide)

private theorem closes_cons {c : Char} (hspace : isSpace c = false) (hname : isNameChar c = false)
    (cs : List Char) : Closes (c :: cs) := by
  intro d hd
  obtain rfl : c = d := by simpa using hd
  exact ⟨hspace, hname⟩

section Items

variable {n : ℕ} {items : List Item} {cs rest : List Char}
  (hcs : content? n (cs ++ rest) = some (items, rest))

include hcs

private theorem content?_char {c : Char} {w : List Char} (hunit : IsUnit c w)
    (hbracket : ¬ "]]>".toList <+: w ++ cs) (hend : Ends rest) :
    content? (n + 1) (w ++ cs ++ rest) = some (.char c :: items, rest) := by
  have hnot : "]]>".toList.isPrefixOf (w ++ (cs ++ rest)) = false := by
    rw [Bool.eq_false_iff, ne_eq, List.isPrefixOf_iff_prefix, ← List.append_assoc]
    exact not_prefix_append hend (by decide) hbracket
  -- what is written for a character begins no tag
  obtain ⟨d, ds, hd, hlt⟩ : ∃ d ds, w = d :: ds ∧ d ≠ '<' := by
    cases hunit with
    | plain _ hlt => exact ⟨c, [], rfl, hlt⟩
    | entity => exact ⟨'&', _, rfl, by decide⟩
  have hread := unit?_append hunit (cs ++ rest)
  rw [List.append_assoc]
  rw [hd, List.cons_append] at hread hnot ⊢
  rw [content?, hnot, hread]
  · simp [hcs]
  all_goals simp [hlt]

private theorem content?_comment {text : List Char} (hcomment : IsComment text) :
    content? (n + 1) ("<!--".toList ++ text ++ "-->".toList ++ cs ++ rest) =
      some (.comment text :: items, rest) := by
  have hsplit : "<!--".toList ++ text ++ "-->".toList ++ cs ++ rest =
      '<' :: '!' :: '-' :: '-' :: (text ++ '-' :: '-' :: '>' :: (cs ++ rest)) := by simp
  rw [hsplit, content?, comment?_append hcomment, Option.bind_some, hcs]
  rfl

private theorem content?_empty {tag w : List Char} {attributes : List Binding}
    (htag : IsTag tag attributes w) :
    content? (n + 1) ('<' :: w ++ "/>".toList ++ cs ++ rest) =
      some (.element tag attributes [] :: items, rest) := by
  have hread := tag?_append htag (closes_cons (c := '/') (by decide) (by decide)
    ('>' :: (cs ++ rest)))
  obtain ⟨d, ds, rfl, hslash, hbang⟩ := htag.head
  have hsplit : '<' :: (d :: ds) ++ "/>".toList ++ cs ++ rest =
      '<' :: (d :: ds ++ '/' :: '>' :: (cs ++ rest)) := by simp
  rw [hsplit, content?, hread, Option.bind_some]
  · simp [hcs]
  all_goals simp [hslash, hbang]

/-- An element in front of content that is found is found with it, if its own content is. -/
private theorem content?_element {tag w inner space : List Char} {attributes : List Binding}
    {content : List Item} (htag : IsTag tag attributes w) (hspace : space.all isSpace = true)
    (hinner : ∀ close, Ends close → content? n (inner ++ close) = some (content, close)) :
    content? (n + 1)
        ('<' :: w ++ '>' :: inner ++ "</".toList ++ tag ++ space ++ '>' :: cs ++ rest) =
      some (.element tag attributes content :: items, rest) := by
  have hread := tag?_append htag (closes_cons (c := '>') (by decide) (by decide)
    (inner ++ ('<' :: '/' :: (tag ++ (space ++ '>' :: (cs ++ rest))))))
  obtain ⟨d, ds, rfl, hslash, hbang⟩ := htag.head
  have hsplit : '<' :: (d :: ds) ++ '>' :: inner ++ "</".toList ++ tag ++ space ++ '>' :: cs ++
      rest = '<' :: (d :: ds ++ '>' :: (inner ++ '<' :: '/' ::
        (tag ++ (space ++ '>' :: (cs ++ rest))))) := by simp
  rw [hsplit, content?, hread, Option.bind_some]
  · simp [hinner _ (.inr ⟨_, rfl⟩), afterEndTag?_append tag hspace, hcs]
  all_goals simp [hslash, hbang]

end Items

/-- Content that the grammar derives is found, by induction on the derivation. -/
private theorem content?_append {items : List Item} {w : List Char} (h : IsContent items w)
    {rest : List Char} (hend : Ends rest) {n : ℕ} (hn : w.length < n) :
    content? n (w ++ rest) = some (items, rest) := by
  obtain ⟨n, rfl⟩ := Nat.exists_eq_succ_of_ne_zero (by omega : n ≠ 0)
  induction h generalizing rest n with
  | nil => exact content?_end hend
  | @char c w cs items hunit hbracket _ ih =>
    have hlt : cs.length < n := by
      have := List.length_pos_iff.mpr hunit.ne_nil
      rw [List.length_append] at hn
      omega
    obtain ⟨n, rfl⟩ := Nat.exists_eq_succ_of_ne_zero (by omega : n ≠ 0)
    exact content?_char (ih hend n hlt) hunit hbracket hend
  | @comment text cs items hcomment _ ih =>
    have hlt : cs.length < n := by
      simp at hn
      omega
    obtain ⟨n, rfl⟩ := Nat.exists_eq_succ_of_ne_zero (by omega : n ≠ 0)
    exact content?_comment (ih hend n hlt) hcomment
  | @empty tag w cs attributes items htag _ ih =>
    have hlt : cs.length < n := by
      simp only [List.length_append, List.length_cons] at hn
      omega
    obtain ⟨n, rfl⟩ := Nat.exists_eq_succ_of_ne_zero (by omega : n ≠ 0)
    exact content?_empty (ih hend n hlt) htag
  | @element tag w inner space cs attributes content items htag _ hspace _ ihinner ih =>
    have hlt : inner.length < n ∧ cs.length < n := by
      simp at hn
      omega
    obtain ⟨n, rfl⟩ := Nat.exists_eq_succ_of_ne_zero (by omega : n ≠ 0)
    exact content?_element (ih hend n hlt.2) htag hspace fun close hclose =>
      ihinner hclose n hlt.1

/-! ### Documents -/

theorem Item.isMisc_eq_false_of_isElement {item : Item} (h : item.isElement = true) :
    item.isMisc = false := by
  cases item <;> simp_all [isElement, isMisc]

/-- A root that the reader finds is the one element, with comments and white space around it. -/
private theorem root?_sound {items : List Item} {root : Item} (h : root? items = some root) :
    ∃ before after, items = before ++ root :: after ∧ root.isElement = true ∧
      before.all Item.isMisc = true ∧ after.all Item.isMisc = true := by
  induction items with
  | nil => simp [root?] at h
  | cons item items ih =>
    rw [root?] at h
    split_ifs at h with hmisc helement
    · obtain ⟨before, after, rfl, hroot, hbefore, hafter⟩ := ih h
      exact ⟨item :: before, after, rfl, hroot, by simp [hmisc, hbefore], hafter⟩
    · obtain rfl : item = root := by simpa using h
      rw [Bool.and_eq_true] at helement
      exact ⟨[], items, rfl, helement.1, rfl, helement.2⟩

/-- The one element with comments and white space around it is found as the root. -/
private theorem root?_append {before after : List Item} {root : Item}
    (hroot : root.isElement = true) (hbefore : before.all Item.isMisc = true)
    (hafter : after.all Item.isMisc = true) : root? (before ++ root :: after) = some root := by
  induction before with
  | nil => simp [root?, Item.isMisc_eq_false_of_isElement hroot, hroot, hafter]
  | cons item before ih =>
    rw [List.all_cons, Bool.and_eq_true] at hbefore
    rw [List.cons_append, root?, if_pos hbefore.1]
    exact ih hbefore.2

private theorem afterDeclaration?_sound {cs rest : List Char}
    (h : afterDeclaration? cs = some rest) : ∃ head, IsDeclaration head ∧ cs = head ++ rest := by
  unfold afterDeclaration? at h
  split at h
  · next cs =>
    rw [Option.bind_eq_some_iff] at h
    obtain ⟨⟨bindings, behind⟩, hbindings, h⟩ := h
    obtain ⟨w, space, hw, hspace, rfl⟩ := attributes?_sound hbindings
    split at h
    · next rest' heq =>
      split_ifs at h with hmem
      obtain rfl : rest' = rest := by simpa using h
      refine ⟨_, .mk hmem hw hspace, ?_⟩
      rw [show behind = _ from heq]
      simp
    · simp at h
  · simp at h

private theorem afterDeclaration?_append {head : List Char} (h : IsDeclaration head)
    (rest : List Char) : afterDeclaration? (head ++ rest) = some rest := by
  cases h with
  | @mk w space bindings hmem hw hspace =>
    have hclose : Closes ('?' :: '>' :: rest) := closes_cons (by decide) (by decide) _
    have hsplit : "<?xml".toList ++ w ++ space ++ "?>".toList ++ rest =
        '<' :: '?' :: 'x' :: 'm' :: 'l' :: (w ++ (space ++ '?' :: '>' :: rest)) := by simp
    rw [hsplit, afterDeclaration?, attributes?_append hw hspace hclose
      (by rw [List.length_append]; omega), Option.bind_some]
    simp [hmem]

/-- **The reader is exact**: it finds a root in a text iff the grammar derives the text as a
document with that root. -/
theorem parse?_eq_some_iff {cs : List Char} {root : Item} :
    parse? cs = some root ↔ IsDocument root cs := by
  constructor
  · intro h
    rw [parse?, Option.bind_eq_some_iff] at h
    obtain ⟨body, hbody, h⟩ := h
    obtain ⟨head, hhead, rfl⟩ := afterDeclaration?_sound hbody
    split at h
    · next items hitems =>
      obtain ⟨before, after, rfl, hroot, hbefore, hafter⟩ := root?_sound h
      obtain ⟨w, hw, hwbody, -⟩ := content?_sound hitems
      rw [List.append_nil] at hwbody
      exact .mk hhead hroot hbefore hafter (hwbody ▸ hw)
    · simp at h
  · rintro ⟨hhead, hroot, hbefore, hafter, hcontent⟩
    next before after head body =>
    have hread := content?_append hcontent (.inl rfl) (Nat.lt_succ_self _)
    rw [List.append_nil] at hread
    rw [parse?, afterDeclaration?_append hhead, Option.bind_some, hread]
    exact root?_append hroot hbefore hafter

/-- A text has one root at most. -/
theorem IsDocument.unique {cs : List Char} {root root' : Item} (h : IsDocument root cs)
    (h' : IsDocument root' cs) : root = root' := by
  rw [← parse?_eq_some_iff] at h h'
  exact Option.some.inj (h.symm.trans h')

end Wireframe.Xml
