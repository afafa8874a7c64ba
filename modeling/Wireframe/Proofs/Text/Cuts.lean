import Mathlib.Data.List.Infix
import Wireframe.Text.Search

/-!
# Cutting a line into spans

A search that goes on right behind each match cuts a line into spans with gaps around them. A cut is
described here without any search (`SpanForm.Cuts`): the gaps and the spans make up the line, each
span may stand in front of what follows it, and none starts inside a gap.

If a recogniser says of every part of a line that reaches to its end which span it starts with
(`SpanForm.RecognisedBy`), there is exactly one cut of the line, and its spans are what the search
finds (`SpanForm.RecognisedBy.exists_cut_unique`). Everything about brackets is left to the kinds of
spans, which only have to describe one span at the head of a list.
-/

namespace Wireframe.Text

/-- A kind of spans. -/
structure SpanForm (α : Type) where
  /-- How a span is written. -/
  written : α → List Char
  /-- Whether a span may stand in front of the rest of a line. -/
  Fits : α → List Char → Prop
  /-- Whether a span starts at the head of a list. -/
  Opens : List Char → Prop

/-- The spans of a line, each with the gap in front of it, and the gap behind the last one. -/
structure Cut (α : Type) where
  /-- The gaps and spans, from left to right. -/
  spans : List (List Char × α)
  /-- The rest of the line. -/
  rest : List Char

variable {α : Type}

/-- What the spans of a cut say, from left to right. -/
def Cut.contents (cut : Cut α) : List α := cut.spans.map (·.2)

theorem Cut.contents_eq_nil_iff {cut : Cut α} : cut.contents = [] ↔ cut.spans = [] :=
  List.map_eq_nil_iff

namespace SpanForm

variable (form : SpanForm α)

/-- Whether no span starts inside a gap that has `after` behind it. -/
def Quiet (gap after : List Char) : Prop :=
  ∀ tail, tail <:+ gap → tail ≠ [] → ¬ form.Opens (tail ++ after)

/-- The cuts of a line: it consists of the gaps and the spans in turn, every span may stand where it
does, and no span starts inside a gap. -/
inductive Cuts : List Char → Cut α → Prop
  | rest {gap : List Char} (hquiet : form.Quiet gap []) : Cuts gap ⟨[], gap⟩
  | span {gap after rest : List Char} {content : α} {spans : List (List Char × α)}
    (hquiet : form.Quiet gap (form.written content ++ after)) (hfits : form.Fits content after)
    (hafter : Cuts after ⟨spans, rest⟩) :
    Cuts (gap ++ (form.written content ++ after)) ⟨(gap, content) :: spans, rest⟩

/-- Whether a span is the first of a line: none starts in front of it. -/
def First (line : List Char) (content : α) : Prop :=
  ∃ gap after, line = gap ++ (form.written content ++ after) ∧
    form.Quiet gap (form.written content ++ after) ∧ form.Fits content after

/-- Whether a recogniser says of every tail of a line which span it starts with, if there is one,
and how long that is. -/
structure RecognisedBy (find? : List Char → Option (α × ℕ)) (line : List Char) : Prop where
  written_ne_nil : ∀ content, form.written content ≠ []
  eq_some_iff : ∀ tail, tail <:+ line → ∀ content width, find? tail = some (content, width) ↔
    ∃ after, tail = form.written content ++ after ∧ form.Fits content after ∧
      width = (form.written content).length
  eq_none_iff : ∀ tail, tail <:+ line → (find? tail = none ↔ ¬ form.Opens tail)

variable {form} {find? : List Char → Option (α × ℕ)} {line gap after : List Char}

/-! ### Gaps -/

theorem quiet_nil : form.Quiet [] after := fun _ hsuffix hne =>
  absurd (List.suffix_nil.mp hsuffix) hne

/-- A gap is quiet if nothing opens at its first character or further on. -/
theorem quiet_cons {c : Char} :
    form.Quiet (c :: gap) after ↔ ¬ form.Opens (c :: (gap ++ after)) ∧ form.Quiet gap after := by
  constructor
  · intro hquiet
    exact ⟨hquiet _ (List.suffix_refl _) (List.cons_ne_nil _ _), fun tail hsuffix =>
      hquiet tail (hsuffix.trans (List.suffix_cons _ _))⟩
  · rintro ⟨hhead, hgap⟩ tail hsuffix hne
    rcases List.suffix_cons_iff.mp hsuffix with rfl | hsuffix
    · exact hhead
    · exact hgap tail hsuffix hne

/-- A gap ends at the first place at which a span starts. -/
theorem gap_eq_of_opens {other behind : List Char} (h : form.Quiet gap after)
    (ho : form.Quiet other behind) (hafter : form.Opens after) (hbehind : form.Opens behind)
    (heq : gap ++ after = other ++ behind) : gap = other ∧ after = behind := by
  rcases List.append_eq_append_iff.mp heq with ⟨tail, rfl, rfl⟩ | ⟨tail, rfl, rfl⟩
  · -- the other gap goes on behind this one, and a span starts inside it unless it does not
    by_cases htail : tail = []
    · simp [htail]
    · exact absurd hafter (ho tail (List.suffix_append _ _) htail)
  · by_cases htail : tail = []
    · simp [htail]
    · exact absurd hbehind (h tail (List.suffix_append _ _) htail)

/-- A character behind a line that no span reaches goes into the last gap. -/
theorem Cuts.concat {c : Char} (hnil : ¬ form.Opens [])
    (hopens : ∀ cs, form.Opens (cs ++ [c]) → form.Opens cs)
    (hfits : ∀ content after, form.Fits content after → form.Fits content (after ++ [c]))
    {cut : Cut α} (h : form.Cuts line cut) :
    form.Cuts (line ++ [c]) ⟨cut.spans, cut.rest ++ [c]⟩ := by
  induction h with
  | @rest gap hquiet =>
    refine .rest fun tail hsuffix hne hopen => ?_
    obtain ⟨part, rfl, hpart⟩ := (List.suffix_concat_iff.mp hsuffix).resolve_left hne
    rw [List.append_nil] at hopen
    by_cases hempty : part = []
    · exact hnil (hempty ▸ hopens part hopen)
    · exact hquiet part hpart hempty (by rw [List.append_nil]; exact hopens part hopen)
  | span hquiet hfit _ ih =>
    rw [List.append_assoc, List.append_assoc]
    refine .span (fun tail hsuffix hne hopen => ?_) (hfits _ _ hfit) ih
    rw [← List.append_assoc, ← List.append_assoc] at hopen
    exact hquiet tail hsuffix hne (by rw [← List.append_assoc]; exact hopens _ hopen)

/-- Each span of a cut stands in the line, where it fits in front of what follows it. -/
theorem Cuts.exists_of_mem {cut : Cut α} (h : form.Cuts line cut) {content : α}
    (hmem : content ∈ cut.contents) :
    ∃ before after, line = before ++ (form.written content ++ after) ∧ form.Fits content after := by
  induction h with
  | rest _ => exact absurd hmem List.not_mem_nil
  | @span gap after _ first _ _ hfits _ ih =>
    rcases List.mem_cons.mp hmem with rfl | hmem
    · exact ⟨gap, after, rfl, hfits⟩
    · obtain ⟨before, behind, rfl, hfit⟩ := ih hmem
      exact ⟨gap ++ (form.written first ++ before), behind, by simp, hfit⟩

namespace RecognisedBy

/-- What is recognised on a line is recognised on the rest of it. -/
theorem of_suffix {tail : List Char} (h : form.RecognisedBy find? line) (htail : tail <:+ line) :
    form.RecognisedBy find? tail where
  written_ne_nil := h.written_ne_nil
  eq_some_iff part hpart := h.eq_some_iff part (hpart.trans htail)
  eq_none_iff part hpart := h.eq_none_iff part (hpart.trans htail)

/-- What is written out opens where it fits. -/
theorem opens {content : α} (h : form.RecognisedBy find? (form.written content ++ after))
    (hfits : form.Fits content after) : form.Opens (form.written content ++ after) := by
  have hfind := (h.eq_some_iff _ (List.suffix_refl _) content _).mpr ⟨after, rfl, hfits, rfl⟩
  by_contra hopens
  have hnone := (h.eq_none_iff _ (List.suffix_refl _)).mpr hopens
  exact Option.some_ne_none _ (hfind.symm.trans hnone)

/-- A span at the head of a line is determined. -/
theorem content_eq {content other : α} {behind : List Char}
    (h : form.RecognisedBy find? (form.written content ++ after))
    (hfits : form.Fits content after) (ho : form.Fits other behind)
    (heq : form.written content ++ after = form.written other ++ behind) :
    content = other ∧ after = behind := by
  have hfind := (h.eq_some_iff _ (List.suffix_refl _) content _).mpr ⟨after, rfl, hfits, rfl⟩
  have hother := (h.eq_some_iff _ (List.suffix_refl _) other _).mpr ⟨behind, heq, ho, rfl⟩
  obtain ⟨rfl, -⟩ := Prod.mk.inj (Option.some_inj.mp (hfind.symm.trans hother))
  exact ⟨rfl, List.append_cancel_left heq⟩

/-! ### Cuts -/

/-- A character at which no span starts goes into the first gap. -/
theorem exists_cut_cons {c : Char} (hc : ¬ form.Opens (c :: line)) {cut : Cut α}
    (hcut : form.Cuts line cut) : ∃ longer, form.Cuts (c :: line) longer := by
  cases hcut with
  | rest hquiet =>
    exact ⟨_, .rest (quiet_cons.mpr ⟨by rwa [List.append_nil], hquiet⟩)⟩
  | span hquiet hfits hafter => exact ⟨_, .span (quiet_cons.mpr ⟨hc, hquiet⟩) hfits hafter⟩

/-- Every line can be cut. -/
theorem exists_cut (h : form.RecognisedBy find? line) : ∃ cut, form.Cuts line cut := by
  induction hlength : line.length using Nat.strong_induction_on generalizing line with
  | _ length ih =>
    subst hlength
    cases hfind : find? line with
    | some found =>
      obtain ⟨after, rfl, hfits, -⟩ := (h.eq_some_iff line (List.suffix_refl _) _ _).mp hfind
      have hshorter : after.length < (form.written found.1 ++ after).length := by
        have := List.length_pos_of_ne_nil (h.written_ne_nil found.1)
        rw [List.length_append]
        omega
      obtain ⟨cut, hcut⟩ := ih _ hshorter (h.of_suffix (List.suffix_append _ _)) rfl
      exact ⟨_, .span quiet_nil hfits hcut⟩
    | none =>
      cases line with
      | nil => exact ⟨_, .rest quiet_nil⟩
      | cons c line =>
        have hc := (h.eq_none_iff _ (List.suffix_refl _)).mp hfind
        obtain ⟨cut, hcut⟩ := ih _ (Nat.lt_succ_self _) (h.of_suffix (List.suffix_cons _ _)) rfl
        exact exists_cut_cons hc hcut

/-- A span starts inside a part that it lies in. -/
theorem not_quiet_of_fits {content : α}
    (h : form.RecognisedBy find? (gap ++ (form.written content ++ after)))
    (hfits : form.Fits content after) :
    ¬ form.Quiet (gap ++ (form.written content ++ after)) [] := by
  intro hquiet
  have hopens := (h.of_suffix (List.suffix_append _ _)).opens hfits
  have hne := List.append_ne_nil_of_left_ne_nil (h.written_ne_nil content) after
  refine hquiet _ (List.suffix_append _ _) hne ?_
  rwa [List.append_nil]

/-- Two cuts of a line are the same: their first gaps end at the same place, the spans there are the
same, and so is what follows. -/
theorem cut_eq (h : form.RecognisedBy find? line) {cut other : Cut α} (hcut : form.Cuts line cut)
    (hother : form.Cuts line other) : other = cut := by
  induction hcut generalizing other with
  | rest hquiet =>
    cases hother with
    | rest _ => rfl
    | span _ hfits _ => exact absurd hquiet (h.not_quiet_of_fits hfits)
  | @span gap after rest content spans hquiet hfits _ ih =>
    have hspan := h.of_suffix (List.suffix_append gap (form.written content ++ after))
    generalize hline : gap ++ (form.written content ++ after) = line at h hother
    cases hother with
    | rest hquiet' =>
      subst hline
      exact absurd hquiet' (h.not_quiet_of_fits hfits)
    | span hquiet' hfits' hafter' =>
      have hspan' := h.of_suffix (List.suffix_append _ _)
      obtain ⟨rfl, hrest⟩ :=
        gap_eq_of_opens hquiet hquiet' (hspan.opens hfits) (hspan'.opens hfits') hline
      obtain ⟨rfl, rfl⟩ := hspan.content_eq hfits hfits' hrest
      obtain ⟨rfl, rfl⟩ := Cut.mk.inj (ih (hspan.of_suffix (List.suffix_append _ _)) hafter')
      rfl

/-- The search passes over a gap. -/
theorem allMatches_gap (h : form.RecognisedBy find? (gap ++ after))
    (hquiet : form.Quiet gap after) :
    allMatches find? (gap ++ after) = allMatches find? after := by
  induction gap with
  | nil => rfl
  | cons c gap ih =>
    obtain ⟨hc, hgap⟩ := quiet_cons.mp hquiet
    have hnone := (h.eq_none_iff _ (List.suffix_refl _)).mpr hc
    exact (allMatches_cons_none hnone).trans (ih (h.of_suffix (List.suffix_cons _ _)) hgap)

/-- The search takes a span and goes on right behind it. -/
theorem allMatches_span {content : α}
    (h : form.RecognisedBy find? (form.written content ++ after))
    (hfits : form.Fits content after) :
    allMatches find? (form.written content ++ after) = content :: allMatches find? after := by
  have hfind := (h.eq_some_iff _ (List.suffix_refl _) content _).mpr ⟨after, rfl, hfits, rfl⟩
  have hne := h.written_ne_nil content
  generalize form.written content = span at hfind hne
  obtain ⟨c, cs, rfl⟩ := List.exists_cons_of_ne_nil hne
  rw [List.cons_append] at hfind
  rw [List.cons_append, allMatches_cons_some hfind, List.length_cons, Nat.add_sub_cancel,
    List.drop_left]

/-- The search finds the spans of a cut. -/
theorem allMatches_eq_contents (h : form.RecognisedBy find? line) {cut : Cut α}
    (hcut : form.Cuts line cut) : allMatches find? line = cut.contents := by
  induction hcut with
  | @rest gap hquiet =>
    rw [← List.append_nil gap] at h ⊢
    exact h.allMatches_gap hquiet
  | span hquiet hfits _ ih =>
    have hspan := h.of_suffix (List.suffix_append _ _)
    rw [h.allMatches_gap hquiet, hspan.allMatches_span hfits,
      ih (hspan.of_suffix (List.suffix_append _ _))]
    rfl

/-- **A line has exactly one cut**, and the search finds its spans. -/
theorem exists_cut_unique (h : form.RecognisedBy find? line) :
    ∃ cut, form.Cuts line cut ∧ (∀ other, form.Cuts line other → other = cut) ∧
      allMatches find? line = cut.contents := by
  obtain ⟨cut, hcut⟩ := h.exists_cut
  exact ⟨cut, hcut, fun other hother => h.cut_eq hcut hother, h.allMatches_eq_contents hcut⟩

/-- Whatever the search finds stands in the line, where it fits in front of what follows it. -/
theorem exists_of_mem (h : form.RecognisedBy find? line) {content : α}
    (hmem : content ∈ allMatches find? line) :
    ∃ before after, line = before ++ (form.written content ++ after) ∧ form.Fits content after := by
  obtain ⟨cut, hcut⟩ := h.exists_cut
  rw [h.allMatches_eq_contents hcut] at hmem
  exact hcut.exists_of_mem hmem

/-! ### The first span -/

/-- The first match is the content of the first place that opens. -/
theorem head?_allMatches_eq_some_iff (h : form.RecognisedBy find? line) {content : α} :
    (allMatches find? line).head? = some content ↔ form.First line content := by
  constructor
  · intro hhead
    obtain ⟨cut, hcut⟩ := h.exists_cut
    rw [h.allMatches_eq_contents hcut] at hhead
    cases hcut with
    | rest _ => exact absurd hhead.symm (Option.some_ne_none _)
    | @span gap after _ _ _ hquiet hfits _ =>
      obtain rfl := Option.some_inj.mp hhead
      exact ⟨gap, after, rfl, hquiet, hfits⟩
  · rintro ⟨gap, after, rfl, hquiet, hfits⟩
    rw [h.allMatches_gap hquiet, (h.of_suffix (List.suffix_append _ _)).allMatches_span hfits]
    rfl

/-- Nothing opens at the end of a line. -/
theorem not_opens_nil (h : form.RecognisedBy find? line) : ¬ form.Opens [] := by
  have hnil := List.nil_suffix (l := line)
  rw [← h.eq_none_iff [] hnil, Option.eq_none_iff_forall_ne_some]
  rintro ⟨content, width⟩ hfind
  obtain ⟨after, heq, -⟩ := (h.eq_some_iff [] hnil _ _).mp hfind
  exact h.written_ne_nil content (List.append_eq_nil_iff.mp heq.symm).1

/-- There is no match exactly if no place opens. -/
theorem allMatches_eq_nil_iff (h : form.RecognisedBy find? line) :
    allMatches find? line = [] ↔ ∀ tail, tail <:+ line → ¬ form.Opens tail := by
  constructor
  · intro hnil tail htail hopens
    obtain ⟨cut, hcut⟩ := h.exists_cut
    rw [h.allMatches_eq_contents hcut] at hnil
    cases hcut with
    | rest hquiet =>
      -- the line is one gap, and only the empty tail of a gap may be anything
      have hne : tail ≠ [] := fun heq => h.not_opens_nil (heq ▸ hopens)
      exact hquiet tail htail hne (by rwa [List.append_nil])
    | span _ _ _ => exact absurd hnil (List.cons_ne_nil _ _)
  · intro hopens
    rw [← List.head?_eq_none_iff, Option.eq_none_iff_forall_ne_some]
    intro content hhead
    obtain ⟨gap, after, rfl, -, hfits⟩ := h.head?_allMatches_eq_some_iff.mp hhead
    have hsuffix := List.suffix_append gap (form.written content ++ after)
    exact hopens _ hsuffix ((h.of_suffix hsuffix).opens hfits)

end RecognisedBy

end SpanForm

end Wireframe.Text
