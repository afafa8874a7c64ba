import Mathlib.Data.List.Forall2
import Wireframe.Proofs.Check.MetadataBlock
import Wireframe.Proofs.Check.Returns
import Wireframe.Proofs.Check.WrittenLines

/-!
# What is reported stays reported

More text at the end of a page takes no report back (`growsInto_append`). What is said about the
first heading and about a step between two headings stays as it is; the other reports are about
several lines of the page, and further lines can only join them (`Diagnostic.GrowsInto`). What comes
from the lines below may stand between the old reports but does not change their order.

The checks go through the lines from top to bottom, so on the longer page they go on from where they
end on the shorter one. For the checks that keep a state it is shown that one step lets the state
grow (`BlockCount.grows_add`, `grows_recordLink`), then that the rest of the run does. The line that
the shorter text ends with may lose a carriage return in the longer one, which no check sees
(`ofLines_concat_dropReturn`).
-/

namespace Wireframe

/-- How a diagnostic may change when a page gets longer: there may be more headings of level 1, more
blocks of metadata, or more lines with the same link, noted behind those noted before. -/
inductive Diagnostic.GrowsInto : Diagnostic → Diagnostic → Prop
  | unchanged (diagnostic : Diagnostic) : GrowsInto diagnostic diagnostic
  | level1Headings {count more : ℕ} {lines longer : List ℕ} (hcount : count ≤ more)
    (hlines : lines <+: longer) :
    GrowsInto ⟨.multipleLevel1Headings count, lines⟩ ⟨.multipleLevel1Headings more, longer⟩
  | metadataBlocks {count more : ℕ} {lines longer : List ℕ} (hcount : count ≤ more)
    (hlines : lines <+: longer) :
    GrowsInto ⟨.multipleMetadataBlocks count, lines⟩ ⟨.multipleMetadataBlocks more, longer⟩
  | duplicateLink (text : String) (url : Option String) {lines longer : List ℕ}
    (hlines : lines <+: longer) :
    GrowsInto ⟨.duplicateLink text url lines, lines⟩ ⟨.duplicateLink text url longer, longer⟩

instance : Std.Refl Diagnostic.GrowsInto := ⟨.unchanged⟩

namespace Check

open List (SublistForall₂)

/-! ### Lists that grow -/

section Lists

variable {α β : Type} {R : α → α → Prop} {S : β → β → Prop}

/-- Reports that grow one after the other grow together. -/
theorem sublistForall₂_append {as bs cs ds : List α} (h : SublistForall₂ R as cs)
    (h' : SublistForall₂ R bs ds) : SublistForall₂ R (as ++ bs) (cs ++ ds) := by
  obtain ⟨kept, hkept, hsublist⟩ := List.sublistForall₂_iff.mp h
  obtain ⟨kept', hkept', hsublist'⟩ := List.sublistForall₂_iff.mp h'
  exact List.sublistForall₂_iff.mpr
    ⟨kept ++ kept', List.rel_append hkept hkept', hsublist.append hsublist'⟩

/-- If whatever is made of an element lets something be made of each element it may become, what is
made of a list grows with the list. -/
theorem sublistForall₂_filterMap {f : α → Option β}
    (hf : ∀ a a', R a a' → ∀ b ∈ f a, ∃ b' ∈ f a', S b b') {as bs : List α}
    (h : SublistForall₂ R as bs) : SublistForall₂ S (as.filterMap f) (bs.filterMap f) := by
  induction h with
  | nil => exact .nil
  | @cons a a' as bs hgrows _ ih =>
    cases hfa : f a with
    | none =>
      rw [List.filterMap_cons_none hfa, List.filterMap_cons]
      cases f a' with
      | none => exact ih
      | some _ => exact .cons_right ih
    | some b =>
      obtain ⟨b', hfa', hb⟩ := hf a a' hgrows b hfa
      rw [List.filterMap_cons_some hfa, List.filterMap_cons_some hfa']
      exact .cons hb ih
  | @cons_right a as bs _ ih =>
    rw [List.filterMap_cons]
    cases f a with
    | none => exact ih
    | some _ => exact .cons_right ih

/-- A report that is made under a condition grows when the condition stays true. -/
theorem sublistForall₂_ite {p q : Prop} [Decidable p] [Decidable q] {a b : α} (hpq : p → q)
    (h : R a b) : SublistForall₂ R (if p then [a] else []) (if q then [b] else []) := by
  by_cases hp : p
  · rw [if_pos hp, if_pos (hpq hp)]
    exact .cons h .nil
  · rw [if_neg hp]
    exact .nil

end Lists

/-! ### Headings -/

theorem headingMarks_append (above below : List (List Char)) :
    ∃ more, headingMarks (above ++ below) = headingMarks above ++ more := by
  rw [headingMarks, numbered, List.zipIdx_append, List.filterMap_append]
  exact ⟨_, rfl⟩

variable (marks more : List HeadingMark)

/-- A first heading at another level stays the first one. -/
theorem grows_entryPoint :
    SublistForall₂ Diagnostic.GrowsInto (entryPoint marks) (entryPoint (marks ++ more)) := by
  cases marks with
  | nil => exact .nil
  | cons first rest => exact (List.Sublist.refl _).sublistForall₂

/-- Further main headings only add their lines to the report. -/
theorem grows_singleLevel1 :
    SublistForall₂ Diagnostic.GrowsInto (singleLevel1 marks) (singleLevel1 (marks ++ more)) := by
  have hlines : level1Lines marks <+: level1Lines (marks ++ more) := by
    rw [level1Lines, level1Lines, List.filter_append, List.map_append]
    exact List.prefix_append _ _
  have hcount := hlines.length_le
  exact sublistForall₂_ite (fun h => h.trans_le hcount) (.level1Headings hcount hlines)

/-- The steps between the headings so far are the first steps of the longer page. -/
theorem prefix_levelSkips_append : levelSkips marks <+: levelSkips (marks ++ more) := by
  fun_induction levelSkips marks with
  | case1 previous next rest hskip ih =>
    rw [List.cons_append, List.cons_append, levelSkips, if_pos hskip]
    exact List.cons_prefix_cons.mpr ⟨rfl, ih⟩
  | case2 previous next rest hskip ih =>
    rw [List.cons_append, List.cons_append, levelSkips, if_neg hskip]
    exact ih
  | case3 => exact List.nil_prefix

/-! ### The metadata block -/

namespace BlockCount

/-- Whether one count may come later than another: no block is given up, and stray lines are noted
behind those noted before. -/
structure Grows (count later : BlockCount) : Prop where
  blocks_le : count.blocks ≤ later.blocks
  stray_kept : count.stray <+: later.stray

/-- Whether a count is consistent: as long as no content has been seen, there is one block at
most. -/
def Consistent (count : BlockCount) : Prop := count.contentSeen = false → count.blocks ≤ 1

theorem Grows.trans {count later last : BlockCount} (h : count.Grows later)
    (hlast : later.Grows last) : count.Grows last :=
  ⟨h.blocks_le.trans hlast.blocks_le, h.stray_kept.trans hlast.stray_kept⟩

variable {count : BlockCount}

/-- One more line keeps the count consistent. -/
theorem consistent_add (h : count.Consistent) (line : List Char) (number : ℕ) :
    (count.add line number).Consistent := by
  intro hseen
  unfold add at hseen ⊢
  split_ifs at hseen ⊢ with hmetadata hcontent hblank
  · exact absurd (hcontent.symm.trans hseen) (by decide)
  · exact le_rfl
  · exact h hseen

/-- One more line lets the count grow. -/
theorem grows_add (h : count.Consistent) (line : List Char) (number : ℕ) :
    count.Grows (count.add line number) := by
  unfold add
  split_ifs with hmetadata hcontent hblank
  · exact ⟨Nat.le_succ _, List.prefix_append _ _⟩
  · exact ⟨h (Bool.not_eq_true _ ▸ hcontent), List.prefix_refl _⟩
  · exact ⟨le_rfl, List.prefix_refl _⟩
  · exact ⟨le_rfl, List.prefix_refl _⟩

/-- Further lines keep the count consistent. -/
theorem consistent_addAll (h : count.Consistent) (lines : List (List Char)) (number : ℕ) :
    (count.addAll lines number).Consistent := by
  induction lines generalizing count number with
  | nil => exact h
  | cons line rest ih => exact ih (consistent_add h line number) (number + 1)

/-- Further lines let the count grow. -/
theorem grows_addAll (h : count.Consistent) (lines : List (List Char)) (number : ℕ) :
    count.Grows (count.addAll lines number) := by
  induction lines generalizing count number with
  | nil => exact ⟨le_rfl, List.prefix_refl _⟩
  | cons line rest ih =>
    exact (grows_add h line number).trans (ih (consistent_add h line number) (number + 1))

end BlockCount

/-- Lines below only add to the report about metadata. -/
theorem grows_singleMetadataBlock (above below : List (List Char)) :
    SublistForall₂ Diagnostic.GrowsInto (singleMetadataBlock above)
      (singleMetadataBlock (above ++ below)) := by
  have hstart : BlockCount.start.Consistent := fun _ => Nat.zero_le _
  have hgrows : (countBlocks above).Grows (countBlocks (above ++ below)) := by
    rw [countBlocks, countBlocks, BlockCount.addAll_append]
    exact BlockCount.grows_addAll (BlockCount.consistent_addAll hstart above 1) below _
  exact sublistForall₂_ite (fun h => h.trans_le hgrows.blocks_le)
    (.metadataBlocks hgrows.blocks_le hgrows.stray_kept)

/-! ### Links -/

/-- Whether a record may come later than another: it is about the same link, and lines are noted
behind those noted before. -/
structure LinkRecord.Grows (record later : LinkRecord) : Prop where
  link_eq : later.link = record.link
  lines_kept : record.lines <+: later.lines

instance : Std.Refl LinkRecord.Grows := ⟨fun _ => ⟨rfl, List.prefix_refl _⟩⟩

instance : IsTrans LinkRecord LinkRecord.Grows :=
  ⟨fun _ _ _ h h' => ⟨h'.link_eq.trans h.link_eq, h.lines_kept.trans h'.lines_kept⟩⟩

theorem prefix_noteLine (lines : List ℕ) (number : ℕ) : lines <+: noteLine lines number := by
  unfold noteLine
  split_ifs
  · exact List.prefix_refl _
  · exact List.prefix_append _ _

/-- One link more: its record notes another line, or there is a new record behind the others. -/
theorem grows_recordLink (records : List LinkRecord) (link : LinkUse) (number : ℕ) :
    SublistForall₂ LinkRecord.Grows records (recordLink records link number) := by
  induction records with
  | nil => exact .nil
  | cons record rest ih =>
    rw [recordLink]
    split_ifs
    · exact .cons ⟨rfl, prefix_noteLine _ _⟩ (refl rest)
    · exact .cons (refl record) ih

/-- Recording further links keeps the records, in their order. -/
theorem grows_foldl_recordLink (records : List LinkRecord) (uses : List (LinkUse × ℕ)) :
    SublistForall₂ LinkRecord.Grows records
      (uses.foldl (fun records found => recordLink records found.1 found.2) records) := by
  induction uses generalizing records with
  | nil => exact refl records
  | cons use rest ih => exact IsTrans.trans _ _ _ (grows_recordLink records use.1 use.2) (ih _)

theorem linkUsesFrom_append (above below : List (List Char)) (number : ℕ) :
    linkUsesFrom (above ++ below) number =
      linkUsesFrom above number ++ linkUsesFrom below (number + above.length) := by
  simp only [linkUsesFrom_eq_flatMap, List.zipIdx_append, List.flatMap_append]

theorem linkRecords_append (above below : List (List Char)) :
    linkRecords (above ++ below) =
      (linkUsesFrom below (1 + above.length)).foldl
        (fun records found => recordLink records found.1 found.2) (linkRecords above) := by
  rw [linkRecords, linkUsesFrom_append, List.foldl_append, linkRecords]

/-- A record that has grown is still reported, with the lines it had. -/
theorem grows_diagnostic? {record later : LinkRecord} (h : record.Grows later) (d : Diagnostic)
    (hd : d ∈ record.diagnostic?) : ∃ d' ∈ later.diagnostic?, d.GrowsInto d' := by
  obtain ⟨hcount, hd⟩ := Option.ite_none_right_eq_some.mp hd
  obtain rfl := Option.some_inj.mp hd
  refine ⟨_, if_pos (hcount.trans_le h.lines_kept.length_le), ?_⟩
  rw [h.link_eq]
  exact .duplicateLink _ _ h.lines_kept

theorem grows_duplicateLinks (above below : List (List Char)) :
    SublistForall₂ Diagnostic.GrowsInto (duplicateLinks above)
      (duplicateLinks (above ++ below)) := by
  rw [duplicateLinks, duplicateLinks, linkRecords_append]
  exact sublistForall₂_filterMap (fun _ _ h => grows_diagnostic? h) (grows_foldl_recordLink _ _)

/-! ### All checks -/

/-- More lines at the end of a page take no diagnostic back. -/
theorem grows_ofLines (above below : List (List Char)) :
    SublistForall₂ Diagnostic.GrowsInto (ofLines above) (ofLines (above ++ below)) := by
  obtain ⟨more, hmarks⟩ := headingMarks_append above below
  have hskips := (prefix_levelSkips_append (headingMarks above) more).sublist
  simp only [ofLines, hmarks]
  refine sublistForall₂_append (sublistForall₂_append (sublistForall₂_append
    (sublistForall₂_append ?_ ?_) hskips.sublistForall₂) ?_) ?_
  · exact grows_entryPoint _ more
  · exact grows_singleLevel1 _ more
  · exact grows_singleMetadataBlock above below
  · exact grows_duplicateLinks above below

/-- A carriage return behind the last line changes nothing. -/
theorem ofLines_concat_return (above : List (List Char)) (line : List Char) :
    ofLines (above ++ [line ++ ['\r']]) = ofLines (above ++ [line]) := by
  have hmarks : headingMarks (above ++ [line ++ ['\r']]) = headingMarks (above ++ [line]) := by
    simp only [headingMarks, numbered, List.zipIdx_append, List.filterMap_append,
      List.zipIdx_singleton, List.filterMap_cons, markedLevel?_concat_return]
  have hblocks : countBlocks (above ++ [line ++ ['\r']]) = countBlocks (above ++ [line]) := by
    simp only [countBlocks, BlockCount.addAll_append, BlockCount.addAll, BlockCount.add,
      isMetadataLine_concat_return, allBlank_concat_return]
  have hlinks : linkRecords (above ++ [line ++ ['\r']]) = linkRecords (above ++ [line]) := by
    simp only [linkRecords_append, linkUsesFrom, linkUses_concat_return]
  simp only [ofLines, hmarks, singleMetadataBlock, hblocks, duplicateLinks, hlinks]

/-- A return at the end of the last line changes no report. -/
theorem ofLines_concat_dropReturn (above : List (List Char)) (line : List Char) :
    ofLines (above ++ [Text.dropReturn line]) = ofLines (above ++ [line]) := by
  rcases Text.eq_dropReturn_or line with h | h
  · rw [← h]
  · conv_rhs => rw [h]
    exact (ofLines_concat_return _ _).symm

/-- **More text at the end takes no report back**: what is reported about the longer page holds, in
the same order, all that is reported about the shorter one, grown by what has been added. -/
theorem growsInto_append (above below : String) :
    SublistForall₂ Diagnostic.GrowsInto (Wireframe.check above)
      (Wireframe.check (above ++ "\n" ++ below)) := by
  have hlonger : Text.lines (above ++ "\n" ++ below).toList =
      (Text.rows above.toList).map Text.dropReturn ++ Text.lines below.toList := by
    rw [String.toList_append, String.toList_append, List.append_assoc]
    exact Text.lines_append_rows above.toList below.toList
  rw [Wireframe.check, Wireframe.check, hlonger, Text.lines]
  rcases List.eq_nil_or_concat (Text.rows above.toList) with hrows | ⟨rows, last, hrows⟩
  · exact absurd hrows (Text.splitOn_ne_nil _ _)
  · rw [hrows, List.concat_eq_append, Text.linesOfRows_append (List.cons_ne_nil _ _),
      List.map_append, List.append_assoc]
    -- an empty last row is no line of the shorter text, and any other ends at a line feed now
    cases last with
    | nil =>
      change SublistForall₂ _ (ofLines (_ ++ [])) _
      rw [List.append_nil]
      exact grows_ofLines _ _
    | cons c rest =>
      change SublistForall₂ _ (ofLines (rows.map Text.dropReturn ++ [c :: rest])) _
      rw [← ofLines_concat_dropReturn, ← List.append_assoc]
      exact grows_ofLines _ _

/-- The shorter text ends in a carriage return; in the longer one a skipped level is reported in
between, and the link stands on another line. -/
example :
    Wireframe.check "## A\n[x]\n[x]\r" =
      [⟨.firstHeadingNotLevel1 2 1, [1]⟩, ⟨.duplicateLink "x" none [2, 3], [2, 3]⟩] ∧
    Wireframe.check ("## A\n[x]\n[x]\r" ++ "\n" ++ "#### B\n[x]") =
      [⟨.firstHeadingNotLevel1 2 1, [1]⟩, ⟨.headingLevelSkip 2 4 4, [4]⟩,
        ⟨.duplicateLink "x" none [2, 3, 5], [2, 3, 5]⟩] := by
  decide

end Check

end Wireframe
