import Wireframe.Proofs.Xml.Escape

/-!
# Text in comments

A comment cannot hold two hyphens side by side. The text of a comment is escaped text with a
space between every two hyphens that stand side by side and no other change
(`commentText_eq`): separating the first two hyphens of every run keeps what the text is with
all of them separated, and the rounds end when there is nothing left to separate. Two rounds are
enough however long the runs are (`separateOnce_twice`), because a hyphen that the first round
leaves next to another one has a space or the end of its run on its other side.

Behind a plain caption and between two spaces, such a text is a comment of the grammar
(`SafeComment.append`, `SafeComment.isComment`).
-/

namespace Wireframe.Xml

/-- Puts a space between every two hyphens that stand side by side. -/
def spaceHyphens : List Char → List Char
  | [] => []
  | c :: cs =>
    if c = '-' ∧ cs.head? = some '-' then c :: ' ' :: spaceHyphens cs else c :: spaceHyphens cs

/-! ### Separating hyphens -/

/-- Spacing leaves the first character as it is. -/
theorem head?_spaceHyphens (cs : List Char) : (spaceHyphens cs).head? = cs.head? := by
  cases cs with
  | nil => rfl
  | cons c cs => rw [spaceHyphens]; split_ifs <;> rfl

/-- A round of separating hyphens does not change what is reached in the end. -/
theorem spaceHyphens_separateOnce (cs : List Char) :
    spaceHyphens (separateOnce cs) = spaceHyphens cs := by
  fun_induction separateOnce cs with
  | case1 cs ih =>
    simp only [spaceHyphens, head?_separateOnce, List.head?_cons, ih]
    simp
  | case2 c cs h ih => simp only [spaceHyphens, head?_separateOnce, ih]
  | case3 => rfl

/-- Where no hyphens stand together there is nothing to do. -/
theorem spaceHyphens_eq_self {cs : List Char} (h : ¬ ['-', '-'] <:+: cs) :
    spaceHyphens cs = cs := by
  induction cs with
  | nil => rfl
  | cons c cs ih =>
    rw [List.infix_cons_iff, not_or] at h
    rw [spaceHyphens, ih h.2, if_neg]
    -- two hyphens at the head would be a pair
    rintro ⟨rfl, hhead⟩
    obtain ⟨ds, rfl⟩ := List.head?_eq_some_iff.mp hhead
    exact h.1 ⟨ds, rfl⟩

/-- The loop runs on while two hyphens stand together. -/
theorem hasDoubleHyphen_eq_true_iff {cs : List Char} :
    hasDoubleHyphen cs = true ↔ ['-', '-'] <:+: cs := by
  rw [hasDoubleHyphen, Text.occurs_eq_true_iff]
  exact ⟨fun ⟨before, after, h⟩ => ⟨before, after, h.symm⟩,
    fun ⟨before, after, h⟩ => ⟨before, after, h.symm⟩⟩

/-- The rounds end with a space between every two hyphens that stood side by side. -/
theorem separateHyphens_eq (cs : List Char) : separateHyphens cs = spaceHyphens cs := by
  fun_induction separateHyphens cs with
  | case1 cs h ih => rw [ih, spaceHyphens_separateOnce]
  | case2 cs h =>
    rw [hasDoubleHyphen_eq_true_iff] at h
    rw [spaceHyphens_eq_self h]

theorem commentText_eq (cs : List Char) : commentText cs = spaceHyphens (escape cs) :=
  separateHyphens_eq _

theorem separateOnce_pair (cs : List Char) :
    separateOnce ('-' :: '-' :: cs) = '-' :: ' ' :: '-' :: separateOnce cs := by
  rw [separateOnce]

/-- One round keeps a character that begins no pair. -/
theorem separateOnce_cons {c : Char} {cs : List Char} (h : ¬(c = '-' ∧ cs.head? = some '-')) :
    separateOnce (c :: cs) = c :: separateOnce cs := by
  rw [separateOnce]
  rintro ds rfl rfl
  exact h ⟨rfl, rfl⟩

/-- Two rounds separate all hyphens that stand side by side. -/
theorem separateOnce_twice (cs : List Char) : separateOnce (separateOnce cs) = spaceHyphens cs := by
  -- a hyphen left over by the first round may stand in front of the next pair
  suffices h : separateOnce (separateOnce cs) = spaceHyphens cs ∧
      separateOnce ('-' :: separateOnce cs) = spaceHyphens ('-' :: cs) from h.1
  have hspace : ¬ (' ' : Char) = '-' := by decide
  fun_induction separateOnce cs with
  | case1 cs ih =>
    simp only [separateOnce_pair, separateOnce_cons, spaceHyphens, List.head?_cons, ih.2, hspace,
      Option.some.injEq, false_and, and_false, not_false_eq_true, and_self, if_true]
  | case2 c cs hpair ih =>
    have hc : ¬(c = '-' ∧ cs.head? = some '-') := by
      rintro ⟨rfl, hhead⟩
      obtain ⟨ds, rfl⟩ := List.head?_eq_some_iff.mp hhead
      exact hpair ds rfl rfl
    have hround : ¬(c = '-' ∧ (separateOnce cs).head? = some '-') := by
      rwa [head?_separateOnce]
    refine ⟨?_, ?_⟩
    · rw [separateOnce_cons hround, ih.1, spaceHyphens, if_neg hc]
    · by_cases hhyphen : c = '-'
      · subst hhyphen
        rw [separateOnce_pair, ih.1, spaceHyphens, if_pos ⟨rfl, rfl⟩, spaceHyphens, if_neg hc]
      · rw [separateOnce_cons (by simp [hhyphen]), separateOnce_cons hround, ih.1, spaceHyphens,
          if_neg (by simp [hhyphen]), spaceHyphens, if_neg hc]
  | case3 => exact ⟨rfl, rfl⟩

/-! ### What a comment may hold -/

/-- Spacing adds nothing but blanks. -/
theorem mem_of_mem_spaceHyphens {c : Char} {cs : List Char} (h : c ∈ spaceHyphens cs) :
    c = ' ' ∨ c ∈ cs := by
  induction cs with
  | nil => exact absurd h (by simp [spaceHyphens])
  | cons d ds ih =>
    rw [spaceHyphens] at h
    split_ifs at h
    · simp only [List.mem_cons] at h ⊢
      tauto
    · simp only [List.mem_cons] at h ⊢
      tauto

/-- No two hyphens stand together afterwards. -/
theorem not_double_spaceHyphens (cs : List Char) : ¬ ['-', '-'] <:+: spaceHyphens cs := by
  induction cs with
  | nil => simp [spaceHyphens]
  | cons c cs ih =>
    rw [spaceHyphens]
    split_ifs with h
    · rw [List.infix_cons_iff, List.infix_cons_iff]
      rintro (⟨_, hstart⟩ | ⟨_, hstart⟩ | hinfix)
      · simp at hstart
      · simp at hstart
      · exact ih hinfix
    · rw [List.infix_cons_iff]
      rintro (⟨after, hstart⟩ | hinfix)
      · injection hstart with hc hcs
        refine h ⟨hc.symm, ?_⟩
        rw [← head?_spaceHyphens, ← hcs]
        rfl
      · exact ih hinfix

/-! ### The rounds -/

/-- How separating hyphens goes on: there is one round more as long as two hyphens stand side by
side. Counts the rounds from one text to another. -/
inductive Rounds : ℕ → List Char → List Char → Prop
  | done {cs : List Char} : hasDoubleHyphen cs = false → Rounds 0 cs cs
  | round {n : ℕ} {cs result : List Char} :
      hasDoubleHyphen cs = true → Rounds n (separateOnce cs) result → Rounds (n + 1) cs result

/-- The rounds are over where the hyphens are separated already. -/
theorem Rounds.of_eq {cs : List Char} (h : cs = spaceHyphens cs) :
    Rounds 0 cs (spaceHyphens cs) := by
  have hdone : hasDoubleHyphen cs = false := by
    rw [Bool.eq_false_iff, Ne, hasDoubleHyphen_eq_true_iff, h]
    exact not_double_spaceHyphens cs
  exact h ▸ .done hdone

/-- There are no more than two rounds, and they end with all hyphens separated. -/
theorem exists_rounds (cs : List Char) : ∃ n ≤ 2, Rounds n cs (spaceHyphens cs) := by
  have hlast : ∀ ds, hasDoubleHyphen ds = false → ds = spaceHyphens ds := fun ds h =>
    (spaceHyphens_eq_self (mt hasDoubleHyphen_eq_true_iff.mpr (by simp [h]))).symm
  cases hfirst : hasDoubleHyphen cs with
  | false => exact ⟨0, by omega, .of_eq (hlast cs hfirst)⟩
  | true =>
    rw [← spaceHyphens_separateOnce]
    cases hsecond : hasDoubleHyphen (separateOnce cs) with
    | false => exact ⟨1, by omega, .round hfirst (.of_eq (hlast _ hsecond))⟩
    | true =>
      rw [← spaceHyphens_separateOnce]
      refine ⟨2, by omega, .round hfirst (.round hsecond (.of_eq ?_))⟩
      rw [spaceHyphens_separateOnce, spaceHyphens_separateOnce, separateOnce_twice]

/-- **What stands in a comment**: the rounds of separating hyphens come to an end, and they leave
the escaped text with a space between every two hyphens that stood side by side. -/
theorem commentText_separated (cs : List Char) :
    (∃ n ≤ 2, Rounds n (escape cs) (commentText cs)) ∧
      commentText cs = spaceHyphens (escape cs) ∧ ¬ ['-', '-'] <:+: commentText cs := by
  rw [commentText_eq]
  exact ⟨exists_rounds _, rfl, not_double_spaceHyphens _⟩

/-- A run that is formed when an illegal character is left out. -/
example : commentText "a--\x01--b".toList = "a- - - -b".toList := by
  rw [commentText_eq]
  decide

/-! ### Safe comments -/

private theorem prefix_spaceHyphens {word cs : List Char} (hword : '-' ∉ word)
    (h : word <+: cs) : word <+: spaceHyphens cs := by
  induction word generalizing cs with
  | nil => exact List.nil_prefix
  | cons c word ih =>
    obtain ⟨after, rfl⟩ := h
    rw [List.mem_cons, not_or] at hword
    rw [List.cons_append, spaceHyphens, if_neg fun hc => hword.1 hc.1.symm]
    exact List.cons_prefix_cons.mpr ⟨rfl, ih hword.2 (List.prefix_append _ _)⟩

/-- Spacing leaves the references whole. -/
theorem NamesEntities.spaceHyphens {cs : List Char} (h : NamesEntities cs) :
    NamesEntities (spaceHyphens cs) := by
  induction cs with
  | nil => exact h
  | cons c cs ih =>
    have htail : NamesEntities (Xml.spaceHyphens cs) :=
      ih fun after ha => h after (ha.trans (by simp))
    rw [Xml.spaceHyphens]
    split_ifs with hc
    · refine namesEntities_cons_of_ne ?_ (namesEntities_cons_of_ne (by decide) htail)
      exact hc.1 ▸ (by decide)
    · refine namesEntities_cons (fun hamp => ?_) htail
      obtain ⟨e, he, hstart⟩ := h cs (by simp [hamp])
      refine ⟨e, he, prefix_spaceHyphens ?_ hstart⟩
      simpa using not_mem_of_mem_entities he (by decide : '-'.isLower = false)

/-- Content that is safe in a comment with a space on either side. -/
structure SafeComment (content : List Char) : Prop where
  isChar : ∀ c ∈ content, isChar c = true
  not_double : ¬ ['-', '-'] <:+: content
  namesEntities : NamesEntities content

/-- Whether a text may stand in a comment as it is, wherever it stands. -/
def isCaption (cs : List Char) : Bool := cs.all fun c => isPlain c && c != '-'

/-- A caption may stand in front of the text. -/
theorem SafeComment.append {caption content : List Char} (hcaption : isCaption caption = true)
    (h : SafeComment content) : SafeComment (caption ++ content) := by
  induction caption with
  | nil => exact h
  | cons c caption ih =>
    rw [isCaption, List.all_cons, Bool.and_eq_true, Bool.and_eq_true, bne_iff_ne] at hcaption
    obtain ⟨⟨hplain, hhyphen⟩, hrest⟩ := hcaption
    obtain ⟨hchar, hamp, -⟩ := not_mem_markup_of_isPlain hplain
    have ih := ih hrest
    refine ⟨List.forall_mem_cons.mpr ⟨hchar, ih.isChar⟩, ?_,
      namesEntities_cons_of_ne hamp ih.namesEntities⟩
    rw [List.cons_append, List.infix_cons_iff]
    rintro (⟨after, hstart⟩ | hinfix)
    · injection hstart with hc
      exact hhyphen hc.symm
    · exact ih.not_double hinfix

/-- A caption alone is safe in a comment. -/
theorem SafeComment.of_isCaption {caption : List Char} (h : isCaption caption = true) :
    SafeComment caption := by
  have hnil : SafeComment [] := ⟨by simp, by simp, namesEntities_nil⟩
  have := SafeComment.append h hnil
  rwa [List.append_nil] at this

/-- What is safe is a comment between two blanks. -/
theorem SafeComment.isComment {content : List Char} (h : SafeComment content) :
    IsComment (' ' :: content ++ [' ']) := by
  refine ⟨?_, ?_, by rw [List.getLast?_concat]; decide⟩
  · have hspace : Xml.isChar ' ' = true := by decide
    simp only [List.cons_append, List.mem_cons, List.mem_append, List.not_mem_nil, or_false]
    rintro c (rfl | hc | rfl)
    exacts [hspace, h.isChar c hc, hspace]
  · rw [List.cons_append, List.infix_cons_iff, List.infix_concat_iff]
    rintro (⟨_, hstart⟩ | ⟨before, hlast⟩ | hinfix)
    · simp at hstart
    · have := congrArg List.getLast? hlast
      simp at this
    · exact h.not_double hinfix

/-- The text of a comment is safe, whatever it was made from. -/
theorem safeComment_commentText (cs : List Char) : SafeComment (commentText cs) := by
  rw [commentText_eq]
  refine ⟨fun c hc => ?_, not_double_spaceHyphens _, (escaped_escape cs).namesEntities.spaceHyphens⟩
  rcases mem_of_mem_spaceHyphens hc with rfl | hc
  · decide
  · exact (escaped_escape cs).isChar c hc

end Wireframe.Xml
