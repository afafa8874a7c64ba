import Wireframe.Toml.Writer

/-!
# Texts in TOML

A text that has been written is read back as it was, whichever of the four forms it has been written
in (`Toml.text?_quoted`). In a form for several lines up to two quotes may stand right before the
closing ones, and a reader takes them for quotes of the text (`Toml.closing?_append`).
-/

namespace Wireframe.Toml

variable {c : Char} {cs rest : List Char}

/-! ### Characters -/

/-- What needs no escape and ends no line may stand as it is. -/
theorem isPlain_of_needsEscape (h : needsEscape c = false) (hline : c ≠ '\n') :
    isPlain c = true := by
  have hbeq : (c == '\n') = false := beq_false_of_ne hline
  simp only [needsEscape, bne, hbeq, Bool.not_false, Bool.and_true, Bool.or_eq_false_iff,
    Bool.and_eq_false_iff, decide_eq_false_iff_not, Bool.not_eq_false', beq_iff_eq,
    beq_eq_false_iff_ne] at h
  obtain ⟨hlow | htab, hdelete⟩ := h
  · simp only [isPlain, Bool.or_eq_true, Bool.and_eq_true, decide_eq_true_eq, bne_iff_ne]
    exact .inr ⟨by omega, hdelete⟩
  · simp [isPlain, htab]

/-- The four digits that stand for a control character are read back. -/
theorem codeChar?_escape (h : needsEscape c = true) :
    codeChar? ['0', '0', upperHexDigit (c.toNat / 16), upperHexDigit (c.toNat % 16)] = some c := by
  have hall : ∀ n < 128, codeChar? ['0', '0', upperHexDigit (n / 16), upperHexDigit (n % 16)] =
      some (Char.ofNat n) := by decide
  have hlow : c.toNat < 128 := by
    simp only [needsEscape, Bool.or_eq_true, Bool.and_eq_true, decide_eq_true_eq, beq_iff_eq] at h
    omega
  rw [hall _ hlow, Char.ofNat_toNat]

/-- What a short escape stands for is read back, and it starts no other escape. -/
theorem shortEscaped?_of_shortEscape? {letter : Char} (h : shortEscape? c = some letter) :
    shortEscaped? letter = some c ∧ letter ≠ 'u' ∧ letter ≠ 'U' ∧
      ∀ cs, startsLineEnd (letter :: cs) = false := by
  unfold shortEscape? at h
  split at h <;> first
    | (obtain rfl := Option.some.inj h; exact ⟨rfl, by decide, by decide, fun _ => rfl⟩)
    | cases h

theorem plain_of_shortEscape? (h : shortEscape? c = none) : c ≠ '\\' ∧ c ≠ '\n' ∧ c ≠ '\r' := by
  refine ⟨?_, ?_, ?_⟩ <;> rintro rfl <;> cases h

/-! ### One line -/

/-- A short escape on one line is read as the character it stands for. -/
theorem basic?_escaped {letter : Char} (hletter : shortEscaped? letter = some c)
    (hu : letter ≠ 'u') (hU : letter ≠ 'U') (cs : List Char) :
    basic? ('\\' :: letter :: cs) = (basic? cs).map fun found => (c :: found.1, found.2) := by
  rw [basic?, hletter, Option.bind_some]
  · exact fun _ _ _ _ _ heq _ => hu heq
  · exact fun _ _ _ _ _ _ _ _ _ heq _ => hU heq

theorem basic?_plain (hquote : c ≠ '"') (hbackslash : c ≠ '\\') (hplain : isPlain c = true)
    (cs : List Char) : basic? (c :: cs) = (basic? cs).map fun found => (c :: found.1, found.2) := by
  rw [basic?, if_pos (by simp [hplain, hbackslash])] <;> grind

/-- A character in a text on one line is read back. -/
theorem basic?_escapeChar (hquote : c ≠ '"') (cs : List Char) :
    basic? (escapeChar false c ++ cs) = (basic? cs).map fun found => (c :: found.1, found.2) := by
  rw [escapeChar, Bool.false_and, if_neg Bool.false_ne_true]
  cases hshort : shortEscape? c with
  | some letter =>
    obtain ⟨hletter, hu, hU, -⟩ := shortEscaped?_of_shortEscape? hshort
    exact basic?_escaped hletter hu hU cs
  | none =>
    obtain ⟨hbackslash, hline, -⟩ := plain_of_shortEscape? hshort
    cases hescape : needsEscape c with
    | true =>
      simp only [if_true, List.cons_append, List.nil_append]
      rw [basic?, codeChar?_escape hescape, Option.bind_some]
    | false => exact basic?_plain hquote hbackslash (isPlain_of_needsEscape hescape hline) cs

/-- An escaped text on one line is read back, up to its closing quote. -/
theorem basic?_escape (run : Nat) (cs rest : List Char) :
    basic? (escape false run cs ++ '"' :: rest) = some (cs, rest) := by
  induction cs generalizing run with
  | nil => rw [escape, List.nil_append, basic?]
  | cons c cs ih =>
    rw [escape]
    split
    · rename_i hquote
      rw [Bool.false_and, if_neg Bool.false_ne_true, List.cons_append, List.cons_append,
        basic?_escaped (by decide : shortEscaped? '"' = some '"') (by decide) (by decide), ih,
        hquote]
      rfl
    · rename_i hquote
      rw [List.append_assoc, basic?_escapeChar hquote, ih]
      rfl

/-- A text without quotes is read as it stands, up to its closing quote. -/
theorem literal?_append (h : ∀ c ∈ cs, isPlain c = true ∧ c ≠ '\'') (rest : List Char) :
    literal? (cs ++ '\'' :: rest) = some (cs, rest) := by
  induction cs with
  | nil => rw [List.nil_append, literal?]
  | cons c cs ih =>
    obtain ⟨⟨hplain, hquote⟩, hcs⟩ := List.forall_mem_cons.mp h
    rw [List.cons_append, literal?, if_pos hplain, ih hcs, Option.map_some]
    exact fun heq => hquote heq

/-! ### Several lines -/

section Closing

variable {quote : Char}

theorem closing?_of_ne (h : c ≠ quote) (cs : List Char) : closing? quote (c :: cs) = none := by
  rcases cs with _ | ⟨b, _ | ⟨d, cs⟩⟩ <;> simp [closing?, h]

/-- Where a text without three quotes at its head is followed by the closing quotes, it ends if
there are only quotes left of it. -/
theorem closing?_append (h : ∀ more, cs ≠ quote :: quote :: quote :: more)
    (hrest : ∀ more, rest ≠ quote :: more) :
    closing? quote (cs ++ quote :: quote :: quote :: rest) =
      if cs.all (· == quote) then some (cs, rest) else none := by
  have hend : ∀ d more, rest = d :: more → d ≠ quote := by
    rintro d more rfl rfl
    exact hrest more rfl
  rcases cs with _ | ⟨a, _ | ⟨b, _ | ⟨d, cs⟩⟩⟩
  · rcases rest with _ | ⟨d, _ | ⟨e, more⟩⟩
    · simp [closing?]
    · simp [closing?, hend d _ rfl]
    · simp [closing?, hend d _ rfl]
  · by_cases ha : a = quote
    · rcases rest with _ | ⟨d, more⟩
      · simp [closing?, ha]
      · simp [closing?, ha, hend d _ rfl]
    · simp [closing?, ha]
  · by_cases ha : a = quote <;> by_cases hb : b = quote <;> simp [closing?, ha, hb]
  · by_cases ha : a = quote <;> by_cases hb : b = quote <;> by_cases hd : d = quote
    · exact absurd (by rw [ha, hb, hd]) (h cs)
    all_goals simp [closing?, ha, hb, hd]

end Closing

/-- What stands for a character begins with no quote, and with a line end for a line end only. -/
theorem exists_escapeChar (multi : Bool) (hquote : c ≠ '"') : ∃ d ds,
    escapeChar multi c = d :: ds ∧ d ≠ '"' ∧ d ≠ '\r' ∧ (d = '\n' → c = '\n') := by
  rw [escapeChar]
  split
  · rename_i hline
    rw [Bool.and_eq_true, beq_iff_eq] at hline
    exact ⟨_, _, rfl, by decide, by decide, fun _ => hline.2⟩
  · split
    · exact ⟨_, _, rfl, by decide, by decide, nofun⟩
    · rename_i hshort
      split
      · exact ⟨_, _, rfl, by decide, by decide, nofun⟩
      · exact ⟨_, _, rfl, hquote, (plain_of_shortEscape? hshort).2.2, id⟩

/-- The body of a text over several lines starts with two quotes at most. -/
theorem escape_ne_quotes (run : Nat) (cs more : List Char) :
    escape true run cs ≠ '"' :: '"' :: '"' :: more := by
  -- where there are two quotes already, the body does not start with another one
  have hhead {run : Nat} (hrun : 2 ≤ run) (cs more : List Char) :
      escape true run cs ≠ '"' :: more := by
    cases cs with
    | nil => rw [escape]; nofun
    | cons c cs =>
      by_cases hc : c = '"'
      · simp [escape, hc, Nat.not_lt.mpr hrun]
      · obtain ⟨d, ds, hd, hne, -⟩ := exists_escapeChar true hc
        simp [escape, hc, hd, hne]
  have hstep {run : Nat} {cs more : List Char} (h : escape true run cs = '"' :: more) :
      ∃ cs', more = escape true (run + 1) cs' := by
    cases cs with
    | nil => rw [escape] at h; cases h
    | cons c cs =>
      by_cases hc : c = '"'
      · by_cases hrun : run < 2
        · simp only [escape, hc, hrun, Bool.true_and, decide_true, if_true, List.cons.injEq,
            true_and] at h
          exact ⟨cs, h.symm⟩
        · exact absurd h (hhead (by omega) _ _)
      · obtain ⟨d, ds, hd, hne, -⟩ := exists_escapeChar true hc
        simp [escape, hc, hd, hne] at h
  intro h
  obtain ⟨cs', h'⟩ := hstep h
  obtain ⟨cs'', h''⟩ := hstep h'.symm
  exact hhead (by omega) _ _ h''.symm

/-- Quotes are written as they are where the whole body consists of them. -/
theorem escape_eq_of_all (run : Nat) (cs : List Char)
    (h : (escape true run cs).all (· == '"') = true) : escape true run cs = cs := by
  induction cs generalizing run with
  | nil => rw [escape]
  | cons c cs ih =>
    rw [escape] at h ⊢
    split at h
    · rename_i hc
      split at h
      · rename_i hrun
        rw [List.all_cons, Bool.and_eq_true] at h
        rw [if_pos hc, if_pos hrun, ih _ h.2, hc]
      · rw [List.all_cons, Bool.and_eq_true] at h
        exact absurd h.1 (by decide)
    · rename_i hc
      obtain ⟨d, ds, hd, hne, -⟩ := exists_escapeChar true hc
      rw [hd, List.cons_append, List.all_cons, Bool.and_eq_true, beq_iff_eq] at h
      exact absurd h.1 hne

section Step

variable (hbackslash : c ≠ '\\') (hreturn : c ≠ '\r')

include hbackslash hreturn

theorem multiBasic?_closed {closed : List Char × List Char}
    (h : closing? '"' (c :: cs) = some closed) : multiBasic? false (c :: cs) = some closed := by
  rw [multiBasic?, h] <;> grind

/-- A plain character or a line end within several lines is read as itself. -/
theorem multiBasic?_plain (h : closing? '"' (c :: cs) = none)
    (hplain : c = '\n' ∨ isPlain c = true) :
    multiBasic? false (c :: cs) =
      (multiBasic? false cs).map fun found => (c :: found.1, found.2) := by
  rw [multiBasic?, h]
  · simp only [Bool.false_and, Bool.false_eq_true, if_false]
    rw [if_pos]
    rcases hplain with rfl | hplain <;> simp [*]
  all_goals grind

end Step

/-- A short escape within several lines is read as the character it stands for. -/
theorem multiBasic?_escaped {letter : Char} (hletter : shortEscaped? letter = some c)
    (hu : letter ≠ 'u') (hU : letter ≠ 'U') (cs : List Char)
    (hline : startsLineEnd (letter :: cs) = false) :
    multiBasic? false ('\\' :: letter :: cs) =
      (multiBasic? false cs).map fun found => (c :: found.1, found.2) := by
  rw [multiBasic?, hline, if_neg Bool.false_ne_true, hletter, Option.bind_some]
  · exact fun _ _ _ _ _ heq _ => hu heq
  · exact fun _ _ _ _ _ _ _ _ _ heq _ => hU heq

/-- A character in a text over several lines is read back. -/
theorem multiBasic?_escapeChar (hquote : c ≠ '"') (cs : List Char) :
    multiBasic? false (escapeChar true c ++ cs) =
      (multiBasic? false cs).map fun found => (c :: found.1, found.2) := by
  rw [escapeChar, Bool.true_and]
  split
  · rename_i hline
    rw [beq_iff_eq] at hline
    subst hline
    exact multiBasic?_plain (by decide) (by decide) (closing?_of_ne (by decide) cs) (.inl rfl)
  · rename_i hline
    rw [beq_iff_eq] at hline
    cases hshort : shortEscape? c with
    | some letter =>
      obtain ⟨hletter, hu, hU, hends⟩ := shortEscaped?_of_shortEscape? hshort
      exact multiBasic?_escaped hletter hu hU cs (hends cs)
    | none =>
      obtain ⟨hbackslash, -, hreturn⟩ := plain_of_shortEscape? hshort
      cases hescape : needsEscape c with
      | true =>
        simp only [if_true, List.cons_append, List.nil_append]
        rw [multiBasic?, codeChar?_escape hescape, Option.bind_some]
      | false =>
        exact multiBasic?_plain hbackslash hreturn (closing?_of_ne hquote cs)
          (.inr (isPlain_of_needsEscape hescape hline))

/-- An escaped text over several lines is read back: no run of three quotes is left in it. -/
theorem multiBasic?_escape (run : Nat) (cs : List Char) (hrest : ∀ more, rest ≠ '"' :: more) :
    multiBasic? false (escape true run cs ++ '"' :: '"' :: '"' :: rest) = some (cs, rest) := by
  induction cs generalizing run with
  | nil =>
    have hclosing := closing?_append (escape_ne_quotes run []) hrest
    rw [escape] at hclosing ⊢
    exact multiBasic?_closed (by decide) (by decide) hclosing
  | cons c cs ih =>
    by_cases hc : c = '"'
    · subst hc
      -- two quotes may stand as they are, the third one is escaped
      by_cases hrun : run < 2
      · have hbody : escape true run ('"' :: cs) = '"' :: escape true (run + 1) cs := by
          simp [escape, hrun]
        have hclosing := closing?_append (escape_ne_quotes run ('"' :: cs)) hrest
        cases hall : (escape true run ('"' :: cs)).all (· == '"') with
        | true =>
          rw [if_pos hall, escape_eq_of_all run _ hall] at hclosing
          rw [escape_eq_of_all run _ hall]
          exact multiBasic?_closed (by decide) (by decide) hclosing
        | false =>
          rw [if_neg (by simp [hall]), hbody, List.cons_append] at hclosing
          rw [hbody, List.cons_append,
            multiBasic?_plain (by decide) (by decide) hclosing (.inr (by decide)), ih]
          rfl
      · have hbody : escape true run ('"' :: cs) = '\\' :: '"' :: escape true 0 cs := by
          simp [escape, hrun]
        rw [hbody, List.cons_append, List.cons_append,
          multiBasic?_escaped (by decide : shortEscaped? '"' = some '"') (by decide) (by decide) _
            (by rfl), ih]
        rfl
    · rw [escape, if_neg hc, List.append_assoc, multiBasic?_escapeChar hc, ih]
      rfl

/-- The longest run is no shorter than the one that is being counted. -/
theorem le_longestRun (c : Char) (run : Nat) (cs : List Char) : run ≤ longestRun c run cs := by
  induction cs generalizing run with
  | nil => exact Nat.le_refl run
  | cons d ds ih =>
    rw [longestRun]
    split
    · exact Nat.le_trans (Nat.le_succ run) (ih (run + 1))
    · exact Nat.le_max_left ..

/-- Where no run is longer than two, no three quotes stand in front. -/
theorem ne_quotes_of_longestRun {run : Nat} (h : longestRun c run cs ≤ 2) (more : List Char) :
    cs ≠ c :: c :: c :: more := by
  rintro rfl
  have := le_longestRun c (run + 1 + 1 + 1) more
  simp only [longestRun, if_true] at h
  omega

/-- A text over several lines without three quotes in a row is read as it stands. -/
theorem multiLiteral?_append {run : Nat} (h : ∀ c ∈ cs, needsEscape c = false)
    (hrun : longestRun '\'' run cs ≤ 2) (hrest : ∀ more, rest ≠ '\'' :: more) :
    multiLiteral? (cs ++ '\'' :: '\'' :: '\'' :: rest) = some (cs, rest) := by
  induction cs generalizing run with
  | nil =>
    have hclosing := closing?_append (ne_quotes_of_longestRun hrun) hrest
    rw [List.nil_append] at hclosing ⊢
    rw [multiLiteral?, hclosing]
    · rfl
    · exact fun _ heq => absurd heq (by decide)
  | cons c cs ih =>
    obtain ⟨hc, hcs⟩ := List.forall_mem_cons.mp h
    have hreturn : c ≠ '\r' := by
      rintro rfl
      exact absurd hc (by decide)
    have hclosing := closing?_append (ne_quotes_of_longestRun hrun) hrest
    rw [List.cons_append] at hclosing ⊢
    rw [multiLiteral?, hclosing]
    · cases hall : (c :: cs).all (· == '\'') with
      | true => rw [if_pos rfl]
      | false =>
        have hplain : (c == '\n' || isPlain c) = true := by
          rw [Bool.or_eq_true, beq_iff_eq]
          exact (Decidable.em (c = '\n')).imp_right (isPlain_of_needsEscape hc)
        -- whatever the count begins with, the runs in the rest stay short
        obtain ⟨run', hrun'⟩ : ∃ run', longestRun '\'' run' cs ≤ 2 := by
          rw [longestRun] at hrun
          split at hrun
          · exact ⟨_, hrun⟩
          · exact ⟨0, Nat.le_trans (Nat.le_max_right ..) hrun⟩
        simp only [Bool.false_eq_true, if_false, hplain, if_true, ih hcs hrun', Option.map_some]
    · exact fun _ heq _ => hreturn heq

/-! ### Forms -/

/-- A character whose longest run is empty does not occur. -/
theorem not_mem_of_longestRun {run : Nat} (h : longestRun c run cs = 0) : c ∉ cs := by
  induction cs generalizing run with
  | nil => exact List.not_mem_nil
  | cons d ds ih =>
    rw [longestRun] at h
    split at h
    · have := le_longestRun c (run + 1) ds
      omega
    · rename_i hne
      rw [List.mem_cons, not_or]
      have hrest : longestRun c 0 ds = 0 := by omega
      exact ⟨fun heq => hne heq.symm, ih hrest⟩

/-- The literal form is chosen for plain texts without its quote only. -/
theorem of_choose_literal (h : TextForm.choose cs = .literal) :
    ∀ c ∈ cs, isPlain c = true ∧ c ≠ '\'' := by
  rw [TextForm.choose] at h
  split at h
  · cases h
  · split at h
    · rename_i hliteral
      simp only [Bool.and_eq_true, Bool.not_eq_true', List.any_eq_false, beq_iff_eq,
        List.contains_eq_mem, decide_eq_false_iff_not] at hliteral
      obtain ⟨⟨hcontrol, hsingle⟩, hline⟩ := hliteral
      intro c hc
      refine ⟨isPlain_of_needsEscape (by simpa using hcontrol c hc) ?_, ?_⟩
      · exact ne_of_mem_of_not_mem hc hline
      · exact ne_of_mem_of_not_mem hc (not_mem_of_longestRun hsingle)
    · split at h
      · cases h
      · split at h
        · cases h
        · split at h <;> cases h

/-- The literal form over several lines is chosen for texts without three of its quotes only. -/
theorem of_choose_multiLiteral (h : TextForm.choose cs = .multiLiteral) :
    (∀ c ∈ cs, needsEscape c = false) ∧ longestRun '\'' 0 cs ≤ 2 := by
  rw [TextForm.choose] at h
  split at h
  · cases h
  · split at h
    · cases h
    · split at h
      · cases h
      · split at h
        · rename_i hliteral
          simpa using hliteral
        · split at h <;> cases h

/-- Nothing is skipped where the text does not begin with a line end. -/
theorem skipLineEnd_of_ne (hline : ∀ more, cs ≠ '\n' :: more)
    (hreturn : ∀ more, cs ≠ '\r' :: '\n' :: more) : skipLineEnd cs = cs := by
  unfold skipLineEnd
  split
  · exact absurd rfl (hline _)
  · exact absurd rfl (hreturn _)
  · rfl

/-- A text on one line, an empty one too, does not look like one over several lines. -/
theorem escape_ne_quote (cs : List Char) (h : ∀ more, rest ≠ '"' :: more) (more : List Char) :
    escape false 0 cs ++ '"' :: rest ≠ '"' :: '"' :: more := by
  cases cs with
  | nil => simpa [escape] using h more
  | cons c cs =>
    by_cases hc : c = '"'
    · simp [escape, hc]
    · obtain ⟨d, ds, hd, hne, -⟩ := exists_escapeChar false hc
      simp [escape, hc, hd, hne]

/-- The line feed that a text is opened with is skipped, and it is there if the text begins with one
of its own. -/
theorem skipLineEnd_opening {form : TextForm} (hform : form.isMulti = true) {written : List Char}
    (h : '\n' ∉ cs → skipLineEnd written = written) :
    skipLineEnd (opening form cs ++ written) = written := by
  rw [opening, hform, Bool.true_and]
  split
  · rw [List.singleton_append, skipLineEnd]
  · next hline => exact h (by simpa [List.contains_iff_mem] using hline)

/-- The line end after the opening quotes is skipped, and none of the text. -/
theorem skipLineEnd_opening_multiBasic (cs rest : List Char) :
    skipLineEnd (opening .multiBasic cs ++ escape true 0 cs ++ '"' :: rest) =
      escape true 0 cs ++ '"' :: rest := by
  rw [List.append_assoc]
  refine skipLineEnd_opening rfl fun hline => ?_
  cases cs with
  | nil => exact skipLineEnd_of_ne (by simp [escape]) (by simp [escape])
  | cons c cs =>
    by_cases hc : c = '"'
    · exact skipLineEnd_of_ne (by simp [escape, hc]) (by simp [escape, hc])
    · obtain ⟨d, ds, hd, -, hreturn, hsame⟩ := exists_escapeChar true hc
      have hne : d ≠ '\n' := by
        rintro rfl
        exact hline (hsame rfl ▸ List.mem_cons_self ..)
      exact skipLineEnd_of_ne (by simp [escape, hc, hd, hne]) (by simp [escape, hc, hd, hreturn])

/-- The line end after the opening quotes is skipped, and none of the literal text. -/
theorem skipLineEnd_opening_multiLiteral (h : ∀ c ∈ cs, needsEscape c = false) (rest : List Char) :
    skipLineEnd (opening .multiLiteral cs ++ cs ++ '\'' :: rest) = cs ++ '\'' :: rest := by
  rw [List.append_assoc]
  refine skipLineEnd_opening rfl fun hline => ?_
  cases cs with
  | nil => exact skipLineEnd_of_ne (by simp) (by simp)
  | cons c cs =>
    have hne : c ≠ '\n' := fun heq => hline (heq ▸ List.mem_cons_self ..)
    have hreturn : c ≠ '\r' := by
      rintro rfl
      exact absurd (h _ (List.mem_cons_self ..)) (by decide)
    exact skipLineEnd_of_ne (by simp [hne]) (by simp [hreturn])

/-- A text that has been written is read back. -/
theorem text?_quoted (cs : List Char) (hdouble : ∀ more, rest ≠ '"' :: more)
    (hsingle : ∀ more, rest ≠ '\'' :: more) : text? (quoted cs ++ rest) = some (cs, rest) := by
  rw [quoted]
  cases hform : TextForm.choose cs with
  | basic =>
    simp only [TextForm.quotes, opening, TextForm.isMulti, body, Bool.false_and, Bool.false_eq_true,
      if_false, List.append_assoc, List.cons_append, List.nil_append]
    rw [text?, basic?_escape]
    exact fun more heq => escape_ne_quote cs hdouble more (by simpa using heq)
  | literal =>
    have hplain := of_choose_literal hform
    simp only [TextForm.quotes, opening, TextForm.isMulti, body, Bool.false_and, Bool.false_eq_true,
      if_false, List.append_assoc, List.cons_append, List.nil_append]
    rw [text?, literal?_append hplain]
    rintro more heq
    cases cs with
    | nil => exact hsingle more (by simpa using heq)
    | cons c cs => exact (hplain c (List.mem_cons_self ..)).2 (by simpa using (List.cons.inj heq).1)
  | multiBasic =>
    simp only [TextForm.quotes, body, List.append_assoc, List.cons_append, List.nil_append]
    rw [text?, ← List.append_assoc, skipLineEnd_opening_multiBasic, multiBasic?_escape 0 cs hdouble]
  | multiLiteral =>
    obtain ⟨hescape, hrun⟩ := of_choose_multiLiteral hform
    simp only [TextForm.quotes, body, List.append_assoc, List.cons_append, List.nil_append]
    rw [text?, ← List.append_assoc, skipLineEnd_opening_multiLiteral hescape,
      multiLiteral?_append hescape hrun hsingle]

end Wireframe.Toml
