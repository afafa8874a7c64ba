import Mathlib.Data.List.TakeWhile
import Wireframe.Proofs.Check.Rules
import Wireframe.Proofs.Document.Entries
import Wireframe.Proofs.Text.Lines

/-!
# Which metadata is reported

The count of metadata blocks has a closed form (`countBlocks_eq`): the lines above the first content
line make one block if there is metadata among them, and each line of metadata below it makes one
more. So something is reported exactly if a page has two lines of metadata at least, one of which
stands below content (`reports_metadataBlocks_iff_splits`).

This is not the same as that some key has several values. A page that drops a value is reported
exactly if its metadata is split in this sense as well (`reportsDropped_iff`), and two values for
one key right at the top are dropped without a report (`not_reportsDropped_top`).
-/

namespace Wireframe.Check

/-- Whether a raw line is content: neither blank nor a line of the metadata block. -/
def isContentLine (line : List Char) : Bool := !isMetadataLine line && !Text.allBlank line

/-- The numbers of the lines of metadata, if lines are counted from the given number. -/
def metadataNumbers (lines : List (List Char)) (start : ℕ) : List ℕ :=
  ((lines.zipIdx start).filter fun entry => isMetadataLine entry.1).map (·.2)

theorem metadataNumbers_cons (line : List Char) (rest : List (List Char)) (start : ℕ) :
    metadataNumbers (line :: rest) start =
      (if isMetadataLine line then [start] else []) ++ metadataNumbers rest (start + 1) :=
  Text.numbers_cons isMetadataLine line rest start

/-! ### Counting -/

namespace BlockCount

/-- Counting goes on below from where it stands above. -/
theorem addAll_append (count : BlockCount) (above below : List (List Char)) (number : ℕ) :
    count.addAll (above ++ below) number =
      (count.addAll above number).addAll below (number + above.length) := by
  induction above generalizing count number with
  | nil => rfl
  | cons line above ih =>
    rw [List.cons_append, addAll, ih, addAll, List.length_cons]
    congr 1
    omega

/-- A line of content ends what may come before it. -/
theorem add_of_content (count : BlockCount) {line : List Char} (h : isContentLine line = true)
    (number : ℕ) : count.add line number = { count with contentSeen := true } := by
  obtain ⟨hmetadata, hblank⟩ := Bool.and_eq_true_iff.mp h
  simp only [Bool.not_eq_eq_eq_not, Bool.not_true] at hmetadata hblank
  simp [add, hmetadata, hblank]

/-- Above the content, all metadata makes one block. -/
theorem addAll_above {lines : List (List Char)} (h : ∀ line ∈ lines, isContentLine line = false)
    (blocks : ℕ) (stray : List ℕ) (number : ℕ) :
    (BlockCount.mk blocks false stray).addAll lines number =
      ⟨if lines.any isMetadataLine then 1 else blocks, false, stray⟩ := by
  induction lines generalizing blocks number with
  | nil => rfl
  | cons line rest ih =>
    obtain ⟨hline, hrest⟩ := List.forall_mem_cons.mp h
    rw [addAll, List.any_cons]
    cases hmetadata : isMetadataLine line with
    | true =>
      have hadd : (BlockCount.mk blocks false stray).add line number = ⟨1, false, stray⟩ := by
        simp [add, hmetadata]
      rw [hadd, ih hrest, ite_self, Bool.true_or, if_pos rfl]
    | false =>
      have hblank : Text.allBlank line = true := by simpa [isContentLine, hmetadata] using hline
      have hadd : (BlockCount.mk blocks false stray).add line number = ⟨blocks, false, stray⟩ := by
        simp [add, hmetadata, hblank]
      rw [hadd, ih hrest, Bool.false_or]

/-- Below the first content line, every line of metadata makes a block and is noted. -/
theorem addAll_below (blocks : ℕ) (stray : List ℕ) (lines : List (List Char)) (number : ℕ) :
    (BlockCount.mk blocks true stray).addAll lines number =
      ⟨blocks + lines.countP isMetadataLine, true, stray ++ metadataNumbers lines number⟩ := by
  induction lines generalizing blocks stray number with
  | nil => simp [addAll, metadataNumbers]
  | cons line rest ih =>
    rw [addAll, metadataNumbers_cons, List.countP_cons]
    cases hmetadata : isMetadataLine line with
    | true =>
      have hadd : (BlockCount.mk blocks true stray).add line number =
          ⟨blocks + 1, true, stray ++ [number]⟩ := by simp [add, hmetadata]
      rw [hadd, ih, if_pos rfl, if_pos rfl, List.append_assoc]
      congr 1
      omega
    | false =>
      have hadd : (BlockCount.mk blocks true stray).add line number = ⟨blocks, true, stray⟩ := by
        simp [add, hmetadata]
      rw [hadd, ih]
      rfl

end BlockCount

/-- The lines above the first content line. -/
def aboveContent (lines : List (List Char)) : List (List Char) :=
  lines.takeWhile (!isContentLine ·)

/-- The lines from the first content line on. -/
def fromContent (lines : List (List Char)) : List (List Char) :=
  lines.dropWhile (!isContentLine ·)

theorem aboveContent_append_fromContent (lines : List (List Char)) :
    aboveContent lines ++ fromContent lines = lines := List.takeWhile_append_dropWhile

theorem not_isContentLine_of_mem_aboveContent {lines : List (List Char)} {line : List Char}
    (h : line ∈ aboveContent lines) : isContentLine line = false := by
  simpa using List.mem_takeWhile_imp h

/-- Below the cut there is nothing, or content first. -/
theorem fromContent_cases (lines : List (List Char)) :
    fromContent lines = [] ∨
      ∃ content rest, fromContent lines = content :: rest ∧ isContentLine content = true := by
  cases hfrom : fromContent lines with
  | nil => exact .inl rfl
  | cons content rest =>
    have hfirst := List.head?_dropWhile_not (!isContentLine ·) lines
    rw [← fromContent, hfrom] at hfirst
    exact .inr ⟨content, rest, rfl, by simpa using hfirst⟩

/-- The metadata above the content makes one block, and each line of metadata below one more. -/
theorem countBlocks_eq (lines : List (List Char)) :
    countBlocks lines =
      ⟨(if (aboveContent lines).any isMetadataLine then 1 else 0) +
          (fromContent lines).countP isMetadataLine,
        !(fromContent lines).isEmpty,
        metadataNumbers (fromContent lines) (1 + (aboveContent lines).length)⟩ := by
  rw [countBlocks, ← aboveContent_append_fromContent lines, BlockCount.addAll_append,
    aboveContent_append_fromContent, BlockCount.start,
    BlockCount.addAll_above fun _ => not_isContentLine_of_mem_aboveContent]
  rcases fromContent_cases lines with hfrom | ⟨content, rest, hfrom, hcontent⟩
  · rw [hfrom]
    rfl
  · have hmetadata : isMetadataLine content = false := by
      simpa using (Bool.and_eq_true_iff.mp hcontent).1
    rw [hfrom, BlockCount.addAll, BlockCount.add_of_content _ hcontent, BlockCount.addAll_below,
      metadataNumbers_cons, List.countP_cons, hmetadata]
    simp

/-! ### Reporting -/

/-- Whether there are two lines of metadata at least, one of which stands below content. -/
def SplitsMetadata (lines : List (List Char)) : Prop :=
  2 ≤ lines.countP isMetadataLine ∧
    ∃ content entry, [content, entry].Sublist lines ∧ isContentLine content = true ∧
      isMetadataLine entry = true

/-- There is metadata below content exactly if some is left below the cut. -/
theorem exists_below_content_iff (lines : List (List Char)) :
    (∃ content entry, [content, entry].Sublist lines ∧ isContentLine content = true ∧
      isMetadataLine entry = true) ↔ 0 < (fromContent lines).countP isMetadataLine := by
  rw [List.countP_pos_iff]
  constructor
  · rintro ⟨content, entry, hsub, hcontent, hentry⟩
    refine ⟨entry, ?_, hentry⟩
    rw [← aboveContent_append_fromContent lines, List.sublist_append_iff] at hsub
    obtain ⟨above, below, heq, habove, hbelow⟩ := hsub
    cases above with
    | nil =>
      rw [List.nil_append] at heq
      exact hbelow.subset (by simp [← heq])
    | cons first above =>
      -- no content stands above the first content line
      obtain ⟨rfl, -⟩ := List.cons.inj heq
      have hnot := not_isContentLine_of_mem_aboveContent (habove.subset (List.mem_cons_self ..))
      exact absurd (hnot.symm.trans hcontent) Bool.false_ne_true
  · rintro ⟨entry, hmem, hentry⟩
    rcases fromContent_cases lines with hfrom | ⟨content, rest, hfrom, hcontent⟩
    · rw [hfrom] at hmem
      exact absurd hmem List.not_mem_nil
    · refine ⟨content, entry, ?_, hcontent, hentry⟩
      rw [hfrom] at hmem
      have hrest : entry ∈ rest := by
        rcases List.mem_cons.mp hmem with rfl | hmem
        · simp [isContentLine, hentry] at hcontent
        · exact hmem
      have hsub : [content, entry].Sublist (fromContent lines) := by
        rw [hfrom]
        exact (List.singleton_sublist.mpr hrest).cons_cons _
      exact hsub.trans (List.dropWhile_sublist _)

/-- More than one block is counted exactly where the metadata are split. -/
theorem one_lt_blocks_iff (lines : List (List Char)) :
    1 < (countBlocks lines).blocks ↔ SplitsMetadata lines := by
  have hcount : lines.countP isMetadataLine = (aboveContent lines).countP isMetadataLine +
      (fromContent lines).countP isMetadataLine := by
    rw [← List.countP_append, aboveContent_append_fromContent]
  have habove : (aboveContent lines).any isMetadataLine = true ↔
      0 < (aboveContent lines).countP isMetadataLine := by
    rw [List.any_eq_true, List.countP_pos_iff]
  rw [SplitsMetadata, exists_below_content_iff, hcount, countBlocks_eq]
  by_cases hany : (aboveContent lines).any isMetadataLine = true
  · have := habove.mp hany
    simp only [if_pos hany]
    omega
  · have := mt habove.mpr hany
    simp only [if_neg hany]
    omega

/-- Metadata is reported exactly if it is split. -/
theorem reports_metadataBlocks_iff_splits (text : String) :
    Reports text "multiple_metadata_blocks" ↔ SplitsMetadata (Text.lines text.toList) := by
  rw [reports_metadataBlocks_iff, ← one_lt_blocks_iff, singleMetadataBlock]
  split_ifs with h
  · exact iff_of_true (List.cons_ne_nil _ _) h
  · exact iff_of_false (not_not.mpr rfl) h

/-- **A page that drops a value is reported exactly if its metadata is split**: keys with several
values are only reported on pages with two lines of metadata, one of them below content. -/
theorem reportsDropped_iff (text : String) :
    (Outline.Drops (meanings text.toList) → Reports text "multiple_metadata_blocks") ↔
      (¬ ((Line.entries (Text.lines text.toList)).map (·.1)).Nodup →
        SplitsMetadata (Text.lines text.toList)) := by
  rw [Outline.drops_iff, Line.entries_lines, reports_metadataBlocks_iff_splits]

/-- Two titles right at the top: the second is dropped and nothing is reported. -/
theorem not_reportsDropped_top :
    ¬ (Outline.Drops (meanings "Title: A\nTitle: B".toList) →
      Reports "Title: A\nTitle: B" "multiple_metadata_blocks") := by
  intro hreports
  have hdrops : Outline.Drops (meanings "Title: A\nTitle: B".toList) := by
    rw [Outline.drops_iff, Line.entries_lines]
    decide
  exact absurd (hreports hdrops) (by decide)

end Wireframe.Check
