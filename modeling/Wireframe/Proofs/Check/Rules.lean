import Mathlib.Data.List.Nodup
import Wireframe.Check

/-!
# Which check reports under which rule

Every check reports under a rule of its own (`rule_of_mem_checks`), so the diagnostics of a page
under one rule are those of one check (`filter_ofLines`). Something is reported under a rule
exactly if its check finds something (`reports_iff`).
-/

namespace Wireframe.Check

/-- The rules with the checks that report under them, in the order of the checks. -/
def checks : List (String × (List (List Char) → List Diagnostic)) :=
  [("first_heading_not_level1", fun lines => entryPoint (headingMarks lines)),
    ("multiple_level1_headings", fun lines => singleLevel1 (headingMarks lines)),
    ("heading_level_skip", fun lines => levelSkips (headingMarks lines)),
    ("multiple_metadata_blocks", singleMetadataBlock),
    ("duplicate_link", duplicateLinks)]

theorem ofLines_eq (lines : List (List Char)) : ofLines lines = checks.flatMap (·.2 lines) := by
  simp [ofLines, checks]

/-! ### Rules of diagnostics -/

/-- The check of the first heading reports under its own rule. -/
theorem rule_of_mem_entryPoint {marks : List HeadingMark} {d : Diagnostic}
    (h : d ∈ entryPoint marks) : d.rule = "first_heading_not_level1" := by
  cases marks with
  | nil => exact absurd h List.not_mem_nil
  | cons first rest =>
    obtain ⟨-, hd⟩ := List.mem_ite_nil_left.mp h
    rw [List.mem_singleton.mp hd]
    rfl

theorem rule_of_mem_singleLevel1 {marks : List HeadingMark} {d : Diagnostic}
    (h : d ∈ singleLevel1 marks) : d.rule = "multiple_level1_headings" := by
  obtain ⟨-, hd⟩ := List.mem_ite_nil_right.mp h
  rw [List.mem_singleton.mp hd]
  rfl

theorem rule_of_mem_levelSkips {marks : List HeadingMark} {d : Diagnostic}
    (h : d ∈ levelSkips marks) : d.rule = "heading_level_skip" := by
  fun_induction levelSkips marks with
  | case1 previous next rest _ ih =>
    rcases List.mem_cons.mp h with rfl | h
    · rfl
    · exact ih h
  | case2 previous next rest _ ih => exact ih h
  | case3 => exact absurd h List.not_mem_nil

theorem rule_of_mem_singleMetadataBlock {lines : List (List Char)} {d : Diagnostic}
    (h : d ∈ singleMetadataBlock lines) : d.rule = "multiple_metadata_blocks" := by
  obtain ⟨-, hd⟩ := List.mem_ite_nil_right.mp h
  rw [List.mem_singleton.mp hd]
  rfl

theorem rule_of_mem_duplicateLinks {lines : List (List Char)} {d : Diagnostic}
    (h : d ∈ duplicateLinks lines) : d.rule = "duplicate_link" := by
  obtain ⟨record, -, hrecord⟩ := List.mem_filterMap.mp h
  obtain ⟨-, hd⟩ := Option.ite_none_right_eq_some.mp hrecord
  rw [← Option.some_inj.mp hd]
  rfl

/-- What a check finds goes back to its rule. -/
theorem rule_of_mem_checks {check : String × (List (List Char) → List Diagnostic)}
    (h : check ∈ checks) {lines : List (List Char)} {d : Diagnostic} (hd : d ∈ check.2 lines) :
    d.rule = check.1 := by
  simp only [checks, List.mem_cons, List.not_mem_nil, or_false] at h
  rcases h with rfl | rfl | rfl | rfl | rfl
  · exact rule_of_mem_entryPoint hd
  · exact rule_of_mem_singleLevel1 hd
  · exact rule_of_mem_levelSkips hd
  · exact rule_of_mem_singleMetadataBlock hd
  · exact rule_of_mem_duplicateLinks hd

/-! ### Diagnostics under a rule -/

/-- The diagnostics of a page under a rule are what the check with the rule finds. -/
theorem filter_ofLines (rule : String) (find : List (List Char) → List Diagnostic)
    (h : (rule, find) ∈ checks) (lines : List (List Char)) :
    (ofLines lines).filter (·.rule = rule) = find lines := by
  have hfilter : ∀ check ∈ checks, (check.2 lines).filter (·.rule = rule) =
      if check.1 = rule then check.2 lines else [] := by
    intro check hcheck
    split_ifs with hrule
    · exact List.filter_eq_self.mpr fun d hd =>
        decide_eq_true ((rule_of_mem_checks hcheck hd).trans hrule)
    · refine List.filter_eq_nil_iff.mpr fun d hd hd' => hrule ?_
      exact (rule_of_mem_checks hcheck hd).symm.trans (of_decide_eq_true hd')
  rw [ofLines_eq, List.filter_flatMap, List.flatMap_congr hfilter]
  -- no other check has the rule
  simp only [checks, List.mem_cons, List.not_mem_nil, or_false, Prod.mk.injEq] at h
  rcases h with ⟨rfl, rfl⟩ | ⟨rfl, rfl⟩ | ⟨rfl, rfl⟩ | ⟨rfl, rfl⟩ | ⟨rfl, rfl⟩ <;> simp [checks]

/-- Whether something about a text is reported under a rule. -/
def Reports (text rule : String) : Prop := ∃ d ∈ Wireframe.check text, d.rule = rule

instance (text rule : String) : Decidable (Reports text rule) :=
  inferInstanceAs (Decidable (∃ d ∈ Wireframe.check text, d.rule = rule))

/-- Something is reported under a rule exactly if the check with the rule finds something. -/
theorem reports_iff (text rule : String) (find : List (List Char) → List Diagnostic)
    (h : (rule, find) ∈ checks) :
    Reports text rule ↔ find (Text.lines text.toList) ≠ [] := by
  rw [← filter_ofLines rule find h, Ne, List.filter_eq_nil_iff]
  simp [Reports, Wireframe.check]

section Rules

variable (text : String)

theorem reports_firstHeading_iff : Reports text "first_heading_not_level1" ↔
    entryPoint (headingMarks (Text.lines text.toList)) ≠ [] :=
  reports_iff text _ (fun lines => entryPoint (headingMarks lines)) (by simp [checks])

theorem reports_multipleLevel1_iff : Reports text "multiple_level1_headings" ↔
    singleLevel1 (headingMarks (Text.lines text.toList)) ≠ [] :=
  reports_iff text _ (fun lines => singleLevel1 (headingMarks lines)) (by simp [checks])

theorem reports_levelSkip_iff : Reports text "heading_level_skip" ↔
    levelSkips (headingMarks (Text.lines text.toList)) ≠ [] :=
  reports_iff text _ (fun lines => levelSkips (headingMarks lines)) (by simp [checks])

theorem reports_metadataBlocks_iff : Reports text "multiple_metadata_blocks" ↔
    singleMetadataBlock (Text.lines text.toList) ≠ [] :=
  reports_iff text _ singleMetadataBlock (by simp [checks])

end Rules

end Wireframe.Check
