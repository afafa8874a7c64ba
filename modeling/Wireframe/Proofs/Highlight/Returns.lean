import Wireframe.Highlight
import Wireframe.Proofs.Check.Returns
import Wireframe.Proofs.Text.Runs

/-!
# Carriage returns behind a highlighted line

The category of a line does not depend on a carriage return behind it: what is looked for at the
start of a line ends before it, it closes no bracket, and behind blanks it is one blank more. The
one exception is a lone `*`, which begins a bullet as soon as a blank stands behind it. So a line
keeps its category when the carriage returns are taken off its end, unless a lone `*` is all that
stands in front of them (`Category.ofLine_dropReturns_eq_iff`).
-/

namespace Wireframe

/-! ### Searching in front of a character -/

namespace Text

variable {test : List Char → Bool} {part : List Char} {c : Char}

/-- A test that a last character does not change finds the same places with it. -/
theorem somewhere_concat (h : ∀ cs, test (cs ++ [c]) = test cs) (cs : List Char) :
    somewhere test (cs ++ [c]) = somewhere test cs := by
  induction cs with
  | nil =>
    have hc : test [c] = test [] := h []
    change (test [c] || test []) = test []
    rw [hc, Bool.or_self]
  | cons d cs ih => rw [List.cons_append, somewhere, ih, ← List.cons_append, h, somewhere]

theorem occurs_concat (h : c ∉ part) (cs : List Char) :
    occurs part (cs ++ [c]) = occurs part cs := somewhere_concat (isPrefixOf_concat h) cs

end Text

namespace Category

/-! ### What the categories look for -/

/-- A return at the end does not change whether a line opens a structure. -/
theorem opensStructure_concat_return (line : List Char) :
    opensStructure (line ++ ['\r']) = opensStructure line := by
  match line with
  | [] => rfl
  | [c] =>
    by_cases hc : c = '#'
    · subst hc
      rfl
    · simp [opensStructure, hc]
  | c :: d :: cs =>
    by_cases hc : c = '#'
    · subst hc
      rfl
    · by_cases hbars : c = '|' ∧ d = '|'
      · obtain ⟨rfl, rfl⟩ := hbars
        rfl
      · simp_all [opensStructure]

theorem endsTag_concat_return (cs : List Char) : endsTag (cs ++ ['\r']) = endsTag cs := by
  rcases Text.span_cases Text.isBlank cs with hall | ⟨run, c, rest, rfl, hrun, hc⟩
  · have hreturn : ∀ d ∈ cs ++ ['\r'], Text.isBlank d = true :=
      List.forall_mem_append.mpr ⟨hall, List.forall_mem_singleton.mpr (by decide)⟩
    rw [endsTag, endsTag, Text.span_of_all hall, Text.span_of_all hreturn]
    cases cs <;> rfl
  · rw [List.append_assoc, List.cons_append, endsTag, endsTag, Text.span_append_cons hrun hc,
      Text.span_append_cons hrun hc, ← List.cons_append]
    cases run with
    | nil => rfl
    | cons _ _ =>
      have hends : ∀ part ∈ ["Start]", "End]"], '\r' ∉ part.toList := by decide
      dsimp only
      rw [Text.isPrefixOf_concat (hends _ (by simp)), Text.isPrefixOf_concat (hends _ (by simp))]

theorem reachesTagEnd_concat_return (cs : List Char) :
    reachesTagEnd (cs ++ ['\r']) = reachesTagEnd cs := by
  induction cs with
  | nil => rfl
  | cons c cs ih =>
    rw [List.cons_append, reachesTagEnd, ih, ← List.cons_append, endsTag_concat_return,
      reachesTagEnd]

theorem startsTag_concat_return (cs : List Char) : startsTag (cs ++ ['\r']) = startsTag cs := by
  cases cs with
  | nil => rfl
  | cons c cs =>
    by_cases hc : c = '['
    · subst hc
      exact reachesTagEnd_concat_return cs
    · simp [startsTag, hc]

/-- A return at the end does not change whether a line is layout. -/
theorem hasLayout_concat_return (line : List Char) :
    hasLayout (line ++ ['\r']) = hasLayout line := by
  have hdirectives : ∀ directive ∈ ["[2 Columns]", "[Sidebar]", "[Card/Block]", "---"],
      '\r' ∉ directive.toList := by decide
  rw [hasLayout, hasLayout, Text.somewhere_concat startsTag_concat_return]
  congr 1
  rw [Bool.eq_iff_iff, List.any_eq_true, List.any_eq_true]
  refine exists_congr fun directive => and_congr_right fun hmem => ?_
  rw [Text.occurs_concat (hdirectives directive hmem)]

/-- A last character that does not close makes no close reached. -/
theorem reaches_concat {close c : Char} (h : c ≠ close) (cs : List Char) :
    reaches close (cs ++ [c]) = reaches close cs := by
  induction cs with
  | nil => simp [reaches, h]
  | cons d cs ih => rw [List.cons_append, reaches, ih, reaches]

/-- A last character that neither opens nor closes makes no pair. -/
theorem startsPair_concat {opening closing c : Char} (hopening : c ≠ opening)
    (hclosing : c ≠ closing) (cs : List Char) :
    startsPair opening closing (cs ++ [c]) = startsPair opening closing cs := by
  cases cs with
  | nil => simp [startsPair, hopening]
  | cons d cs => rw [List.cons_append, startsPair, reaches_concat hclosing, startsPair]

/-- A return is blank, so the first character that is not stays the same. -/
theorem head?_trimStart_concat_return (cs : List Char) :
    ((Text.trimStart (cs ++ ['\r'])).head? == some '[') =
      ((Text.trimStart cs).head? == some '[') := by
  cases hcs : Text.allBlank cs with
  | true =>
    have hreturn : Text.allBlank (cs ++ ['\r']) = true :=
      (Check.allBlank_concat_return cs).trans hcs
    rw [Text.trimStart_eq_nil_iff.mpr hcs, Text.trimStart_eq_nil_iff.mpr hreturn]
  | false =>
    obtain ⟨c, rest, hrest⟩ := List.exists_cons_of_ne_nil (l := Text.trimStart cs) (by
      rw [Ne, Text.trimStart_eq_nil_iff, hcs]
      exact Bool.false_ne_true)
    rw [Text.trimStart_append hcs, hrest]
    rfl

theorem startsField_concat_return (cs : List Char) :
    startsField (cs ++ ['\r']) = startsField cs := by
  match cs with
  | [] => rfl
  | [c] => rfl
  | c :: d :: cs =>
    by_cases hd : d = ':'
    · subst hd
      exact congrArg (Text.isWord c && ·) (head?_trimStart_concat_return cs)
    · simp [startsField, hd]

/-- A return at the end does not change whether a line is an indented blank. -/
theorem isIndentedBlank_concat_return (line : List Char) :
    isIndentedBlank (line ++ ['\r']) = isIndentedBlank line := by
  rcases Text.span_cases Text.isBlank line with hall | ⟨run, c, rest, rfl, hrun, hc⟩
  · have hreturn : ∀ d ∈ line ++ ['\r'], Text.isBlank d = true :=
      List.forall_mem_append.mpr ⟨hall, List.forall_mem_singleton.mpr (by decide)⟩
    rw [isIndentedBlank, isIndentedBlank, Text.span_of_all hall, Text.span_of_all hreturn]
    cases line <;> rfl
  · rw [List.append_assoc, List.cons_append, isIndentedBlank, isIndentedBlank,
      Text.span_append_cons hrun hc, Text.span_append_cons hrun hc]
    cases run with
    | nil => rfl
    | cons b run =>
      -- the return comes behind the underscores, where only a bracket or blanks count
      by_cases hmark : c = '_'
      · subst hmark
        change (Text.allBlank ((rest ++ ['\r']).dropWhile (· == '_')) ||
            ((rest ++ ['\r']).dropWhile (· == '_')).head? == some ']') =
          (Text.allBlank (rest.dropWhile (· == '_')) ||
            (rest.dropWhile (· == '_')).head? == some ']')
        rw [List.dropWhile_append]
        split
        · next hempty =>
          rw [List.isEmpty_iff.mp hempty]
          rfl
        · next hrest =>
          rw [Check.allBlank_concat_return,
            List.head?_append_of_ne_nil _ (mt List.isEmpty_iff.mpr hrest)]
      · simp [hmark]

/-- A carriage return makes a bullet of a lone `*` only. -/
theorem startsBullet_concat_return {line : List Char} (h : line ≠ ['*']) :
    startsBullet (line ++ ['\r']) = startsBullet line := by
  match line with
  | [] => rfl
  | [c] =>
    have hc : c ≠ '*' := fun heq => h (congrArg (fun d => [d]) heq)
    simp [startsBullet, hc]
  | c :: d :: cs =>
    by_cases hc : c = '*'
    · subst hc
      rfl
    · simp [startsBullet, hc]

/-- A return changes the interaction of one line only, the bullet alone. -/
theorem hasInteraction_concat_return {line : List Char} (h : line ≠ ['*']) :
    hasInteraction (line ++ ['\r']) = hasInteraction line := by
  rw [hasInteraction, hasInteraction, isIndentedBlank_concat_return, startsBullet_concat_return h,
    Text.somewhere_concat startsField_concat_return,
    Text.somewhere_concat (startsPair_concat (by decide) (by decide)),
    Text.somewhere_concat (startsPair_concat (by decide) (by decide))]

/-! ### Categories -/

/-- A carriage return behind a line does not change its category, unless the line is a lone `*`. -/
theorem ofLine_concat_return {line : List Char} (h : line ≠ ['*']) :
    ofLine (line ++ ['\r']) = ofLine line := by
  rw [ofLine, ofLine, Check.isMetadataLine_concat_return, opensStructure_concat_return,
    hasLayout_concat_return, hasInteraction_concat_return h]

/-- Whether a line is a lone `*` with carriage returns behind it, at least one. -/
def IsReturnBullet (line : List Char) : Prop :=
  ∃ count, line = '*' :: List.replicate (count + 1) '\r'

/-- Only returns may follow the bullet. -/
theorem isReturnBullet_concat_iff {line : List Char} {c : Char} :
    IsReturnBullet (line ++ [c]) ↔ c = '\r' ∧ (line = ['*'] ∨ IsReturnBullet line) := by
  have hshorter : ∀ count, '*' :: List.replicate (count + 1) '\r' =
      '*' :: List.replicate count '\r' ++ ['\r'] := fun count => by
    rw [List.replicate_succ', List.cons_append]
  constructor
  · rintro ⟨count, heq⟩
    rw [hshorter] at heq
    obtain ⟨rfl, hc⟩ := List.append_inj' heq rfl
    refine ⟨List.singleton_inj.mp hc, ?_⟩
    cases count with
    | zero => exact .inl rfl
    | succ count => exact .inr ⟨count, rfl⟩
  · rintro ⟨rfl, rfl | ⟨count, rfl⟩⟩
    · exact ⟨0, rfl⟩
    · exact ⟨count + 1, (hshorter (count + 1)).symm⟩

/-- **When carriage returns matter to highlighting**: a line has the category that it has without
the carriage returns at its end, unless it is a lone `*` with carriage returns behind it. -/
theorem ofLine_dropReturns_eq_iff (line : List Char) :
    ofLine (Text.dropReturns line) = ofLine line ↔ ¬ IsReturnBullet line := by
  induction line using List.reverseRecOn with
  | nil =>
    refine iff_of_true rfl ?_
    rintro ⟨_, heq⟩
    exact absurd heq.symm (List.cons_ne_nil _ _)
  | append_singleton line c ih =>
    rw [isReturnBullet_concat_iff]
    by_cases hc : c = '\r'
    · subst hc
      rw [Text.dropReturns_append_return]
      by_cases hline : line = ['*']
      · subst hline
        exact iff_of_false (by decide) (not_not_intro ⟨rfl, .inl rfl⟩)
      · rw [ofLine_concat_return hline, ih]
        simp [hline]
    · rw [Text.dropReturns_concat_of_ne hc]
      exact iff_of_true rfl fun h => hc h.1

end Category

end Wireframe
