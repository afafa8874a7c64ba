import Mathlib.Data.List.Chain
import Wireframe.Proofs.Check.Rules

/-!
# Proper outlines

The heading checks look at the first heading and at neighbouring headings only. Together they say
something about the outline as a whole (`properOutline_iff_not_reports`): nothing is reported about
the start and the steps of the outline exactly if every heading has an ancestor at each level above
its own. If the heading of level 1 is not repeated either, it is the first of the page and the
ancestor of every other one.

That ancestors are there is shown by going down the headings: a heading that is no more than one
level below the one in front of it has the ancestors of that one, and that one itself.
-/

namespace Wireframe.Check

/-- Whether one of the headings above has the level and all headings after it are deeper. -/
def HasAncestor (above : List HeadingMark) (level : ℕ) : Prop :=
  ∃ earlier ancestor between, above = earlier ++ ancestor :: between ∧ ancestor.level = level ∧
    ∀ mark ∈ between, level < mark.level

/-- Whether every heading has an ancestor at each level above its own. -/
def ProperOutline (marks : List HeadingMark) : Prop :=
  ∀ above heading below, marks = above ++ heading :: below →
    ∀ level, 1 ≤ level → level < heading.level → HasAncestor above level

/-- Whether the first heading is the ancestor at level 1 of every heading below that level. -/
def RootedAtFirst (marks : List HeadingMark) : Prop :=
  ∀ above heading below, marks = above ++ heading :: below → 1 < heading.level →
    ∃ root between, above = root :: between ∧ root.level = 1 ∧ ∀ mark ∈ between, 1 < mark.level

/-! ### What the checks look at -/

/-- Nothing is reported about the first heading exactly if it is at level 1. -/
theorem entryPoint_eq_nil_iff {marks : List HeadingMark} :
    entryPoint marks = [] ↔ ∀ first ∈ marks.head?, first.level = 1 := by
  cases marks with
  | nil => simp [entryPoint]
  | cons first rest => simp [entryPoint]

/-- No skip is reported exactly if no heading is more than one level below the one before. -/
theorem levelSkips_eq_nil_iff {marks : List HeadingMark} :
    levelSkips marks = [] ↔
      marks.IsChain fun previous next => next.level ≤ previous.level + 1 := by
  fun_induction levelSkips marks with
  | case1 previous next rest hskip ih =>
    refine iff_of_false (List.cons_ne_nil _ _) fun hchain => ?_
    have := (List.isChain_cons_cons.mp hchain).1
    omega
  | case2 previous next rest hskip ih =>
    rw [ih, List.isChain_cons_cons, and_iff_right (Nat.le_of_not_lt hskip)]
  | case3 marks hshort =>
    refine iff_of_true rfl ?_
    rcases marks with _ | ⟨first, _ | ⟨second, rest⟩⟩
    · exact .nil
    · exact .singleton _
    · exact absurd rfl (hshort _ _ _)

/-- Nothing is reported about main headings exactly if there is one at most. -/
theorem singleLevel1_eq_nil_iff {marks : List HeadingMark} :
    singleLevel1 marks = [] ↔ marks.countP (·.level = 1) ≤ 1 := by
  have hlength : (level1Lines marks).length = marks.countP (·.level = 1) := by
    rw [level1Lines, List.length_map, List.countP_eq_length_filter]
    rfl
  rw [singleLevel1, hlength]
  simp

/-- Levels begin at 1. -/
theorem one_le_level_of_mem {lines : List (List Char)} {mark : HeadingMark}
    (h : mark ∈ headingMarks lines) : 1 ≤ mark.level := by
  obtain ⟨⟨line, number⟩, -, hmark⟩ := List.mem_filterMap.mp h
  obtain ⟨level, hlevel, rfl⟩ := Option.map_eq_some_iff.mp hmark
  change markedLevel? line = some level at hlevel
  change 1 ≤ level
  unfold markedLevel? at hlevel
  split at hlevel
  · next markers _ _ =>
    obtain ⟨hmarkers, heq⟩ := Option.ite_none_left_eq_some.mp hlevel
    rw [← Option.some_inj.mp heq]
    cases markers with
    | nil => simp at hmarkers
    | cons _ _ => simp
  · exact absurd hlevel.symm (Option.some_ne_none _)

/-! ### Ancestors -/

theorem not_hasAncestor_nil (level : ℕ) : ¬ HasAncestor [] level := by
  rintro ⟨earlier, ancestor, between, heq, -⟩
  exact absurd heq.symm (List.append_ne_nil_of_right_ne_nil _ (List.cons_ne_nil _ _))

/-- The last heading is an ancestor at its own level, and a deeper one leaves the ancestors as
they are. -/
theorem hasAncestor_concat {above : List HeadingMark} {mark : HeadingMark} {level : ℕ} :
    HasAncestor (above ++ [mark]) level ↔
      mark.level = level ∨ level < mark.level ∧ HasAncestor above level := by
  constructor
  · rintro ⟨earlier, ancestor, between, heq, hlevel, hbetween⟩
    rcases List.eq_nil_or_concat between with rfl | ⟨init, last, rfl⟩
    · obtain ⟨-, hmark⟩ := List.append_inj' heq rfl
      exact .inl (List.singleton_inj.mp hmark ▸ hlevel)
    · rw [List.concat_eq_append] at heq hbetween
      rw [← List.cons_append, ← List.append_assoc] at heq
      obtain ⟨rfl, hmark⟩ := List.append_inj' heq rfl
      obtain rfl := List.singleton_inj.mp hmark
      exact .inr ⟨hbetween mark (by simp), earlier, ancestor, init, rfl, hlevel,
        fun m hm => hbetween m (List.mem_append_left _ hm)⟩
  · rintro (rfl | ⟨hdeeper, earlier, ancestor, between, rfl, hlevel, hbetween⟩)
    · exact ⟨above, mark, [], rfl, rfl, by simp⟩
    · refine ⟨earlier, ancestor, between ++ [mark], by simp, hlevel, fun m hm => ?_⟩
      rcases List.mem_append.mp hm with hm | hm
      · exact hbetween m hm
      · rwa [List.mem_singleton.mp hm]

/-- All headings down to some heading: if the first has level 1 and no step skips a level, the
heading has an ancestor at each level above its own. -/
theorem hasAncestor_of_isChain {above : List HeadingMark} {heading : HeadingMark}
    (hfirst : ∀ first ∈ (above ++ [heading]).head?, first.level = 1)
    (hchain : (above ++ [heading]).IsChain fun previous next => next.level ≤ previous.level + 1)
    {level : ℕ} (hone : 1 ≤ level) (hlevel : level < heading.level) : HasAncestor above level := by
  induction above using List.reverseRecOn generalizing heading with
  | nil =>
    have := hfirst heading rfl
    omega
  | append_singleton above previous ih =>
    obtain ⟨hinit, -, hstep⟩ := List.isChain_append.mp hchain
    have hskip : heading.level ≤ previous.level + 1 :=
      hstep previous (by simp) heading rfl
    rw [hasAncestor_concat]
    -- above the level of the previous heading its ancestors serve, and its own is all that is left
    rcases Nat.lt_or_ge level previous.level with hlt | hge
    · refine .inr ⟨hlt, ih ?_ hinit hlt⟩
      rwa [List.head?_append_of_ne_nil _ (by simp)] at hfirst
    · exact .inl (by omega)

/-! ### Outlines -/

/-- A page has a proper outline exactly if it starts with a heading of level 1 and no step skips a
level. -/
theorem properOutline_iff {marks : List HeadingMark} (hmarks : ∀ mark ∈ marks, 1 ≤ mark.level) :
    ProperOutline marks ↔ (∀ first ∈ marks.head?, first.level = 1) ∧
      marks.IsChain fun previous next => next.level ≤ previous.level + 1 := by
  constructor
  · intro hproper
    refine ⟨fun first hfirst => ?_, List.isChain_iff_forall_rel_of_append_cons_cons.mpr ?_⟩
    · obtain ⟨rest, rfl⟩ := List.head?_eq_some_iff.mp hfirst
      have hone := hmarks first (List.mem_cons_self ..)
      -- a first heading below level 1 would need an ancestor above it
      by_contra hne
      exact not_hasAncestor_nil 1 (hproper [] first rest rfl 1 le_rfl (by omega))
    · rintro previous next above below rfl
      -- behind the previous heading, nothing is an ancestor at the level right below it
      by_contra hskip
      have hancestor := hproper (above ++ [previous]) next below (by simp) (previous.level + 1)
        (by omega) (by omega)
      rcases hasAncestor_concat.mp hancestor with h | ⟨h, -⟩ <;> omega
  · rintro ⟨hfirst, hchain⟩ above heading below rfl level hone hlevel
    rw [List.append_cons] at hfirst hchain
    rw [List.head?_append_of_ne_nil _ (by simp)] at hfirst
    exact hasAncestor_of_isChain hfirst hchain.left_of_append hone hlevel

/-- With one main heading, which is the first, all the others lie below it. -/
theorem rootedAtFirst {marks : List HeadingMark} (hmarks : ∀ mark ∈ marks, 1 ≤ mark.level)
    (hfirst : ∀ first ∈ marks.head?, first.level = 1)
    (hsingle : marks.countP (·.level = 1) ≤ 1) : RootedAtFirst marks := by
  intro above heading below heq hlevel
  cases above with
  | nil =>
    have := hfirst heading (by rw [heq]; rfl)
    omega
  | cons root between =>
    have hroot : root.level = 1 := hfirst root (by rw [heq]; rfl)
    refine ⟨root, between, rfl, hroot, fun mark hmark => ?_⟩
    have hone := hmarks mark (by simp [heq, hmark])
    -- another heading of level 1 would be the second one
    by_contra hle
    have hmark1 : mark.level = 1 := by omega
    have htwo : 0 < between.countP (·.level = 1) :=
      List.countP_pos_iff.mpr ⟨mark, hmark, by simpa using hmark1⟩
    rw [heq, List.cons_append, List.countP_cons_of_pos (by simpa using hroot),
      List.countP_append] at hsingle
    omega

/-- **Nothing is reported about the start and the steps of an outline exactly if it is proper**, and
if the heading of level 1 is not repeated either, it is the first one and the root of all. -/
theorem properOutline_iff_not_reports (text : String) :
    (ProperOutline (headingMarks (Text.lines text.toList)) ↔
      ¬ Reports text "first_heading_not_level1" ∧ ¬ Reports text "heading_level_skip") ∧
    (¬ Reports text "first_heading_not_level1" → ¬ Reports text "heading_level_skip" →
      ¬ Reports text "multiple_level1_headings" →
        RootedAtFirst (headingMarks (Text.lines text.toList))) := by
  have hmarks : ∀ mark ∈ headingMarks (Text.lines text.toList), 1 ≤ mark.level :=
    fun _ => one_le_level_of_mem
  rw [reports_firstHeading_iff, reports_levelSkip_iff, reports_multipleLevel1_iff, not_not, not_not,
    not_not, entryPoint_eq_nil_iff, levelSkips_eq_nil_iff, singleLevel1_eq_nil_iff]
  exact ⟨properOutline_iff hmarks, fun hfirst _ hsingle => rootedAtFirst hmarks hfirst hsingle⟩

/-- Going back up by several levels at once is no fault of an outline. -/
theorem properOutline_upAgain :
    ProperOutline (headingMarks (Text.lines "# A\n## B\n### C\n#### D\n## E\n### F".toList)) ∧
      RootedAtFirst (headingMarks (Text.lines "# A\n## B\n### C\n#### D\n## E\n### F".toList)) := by
  obtain ⟨hproper, hrooted⟩ :=
    properOutline_iff_not_reports "# A\n## B\n### C\n#### D\n## E\n### F"
  exact ⟨hproper.mpr (by decide), hrooted (by decide) (by decide) (by decide)⟩

end Wireframe.Check
