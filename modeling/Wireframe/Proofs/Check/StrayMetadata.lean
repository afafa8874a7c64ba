import Wireframe.Proofs.Check.MetadataBlock

/-!
# Where metadata is counted

The count of metadata blocks is fixed by one position, that of the first content line
(`contentStart`). Metadata above it makes one block; every line of metadata below it makes a block
of its own, and these lines are the ones that are noted as stray. A page is reported for its
metadata exactly if this count is above one, and then once, with the count and the stray lines
(`countBlocks_contentStart`).
-/

namespace Wireframe.Check

/-- The position of the first content line; the number of lines if there is none. -/
def contentStart (lines : List (List Char)) : ℕ := lines.findIdx isContentLine

/-- The lines below the first content line. -/
def belowContent (lines : List (List Char)) : List (List Char) :=
  lines.drop (contentStart lines + 1)

/-! ### The lines around the first content line -/

/-- What stands above the content are the lines before its start. -/
theorem aboveContent_eq_take (lines : List (List Char)) :
    aboveContent lines = lines.take (contentStart lines) := by
  simp [aboveContent, contentStart, List.takeWhile_eq_take_findIdx_not]

theorem fromContent_eq_drop (lines : List (List Char)) :
    fromContent lines = lines.drop (contentStart lines) := by
  simp [fromContent, contentStart, List.dropWhile_eq_drop_findIdx_not]

theorem length_aboveContent (lines : List (List Char)) :
    (aboveContent lines).length = contentStart lines := by
  rw [aboveContent_eq_take, List.length_take]
  exact Nat.min_eq_left List.findIdx_le_length

/-- The first content line is no line of metadata, so all metadata from it on stands below it. -/
theorem metadata_fromContent (lines : List (List Char)) (start : ℕ) :
    (fromContent lines).countP isMetadataLine = (belowContent lines).countP isMetadataLine ∧
      metadataNumbers (fromContent lines) start =
        metadataNumbers (belowContent lines) (start + 1) := by
  have hbelow : belowContent lines = (fromContent lines).tail := by
    rw [fromContent_eq_drop, List.tail_drop, belowContent]
  rw [hbelow]
  rcases fromContent_cases lines with hfrom | ⟨content, rest, hfrom, hcontent⟩
  · rw [hfrom]
    exact ⟨rfl, rfl⟩
  · have hmetadata : isMetadataLine content = false := by
      simpa using (Bool.and_eq_true_iff.mp hcontent).1
    rw [hfrom, List.tail_cons, metadataNumbers_cons, List.countP_cons, hmetadata]
    exact ⟨rfl, rfl⟩

/-- The numbers are those of lines that hold metadata. -/
theorem mem_metadataNumbers {lines : List (List Char)} {start n : ℕ} :
    n ∈ metadataNumbers lines start ↔
      start ≤ n ∧ ∃ line ∈ lines[n - start]?, isMetadataLine line = true := by
  simp only [metadataNumbers, List.mem_map, List.mem_filter, Prod.exists, exists_eq_right,
    List.mk_mem_zipIdx_iff_le_and_getElem?_sub, Option.mem_def]
  tauto

theorem metadataNumbers_pairwise (lines : List (List Char)) (start : ℕ) :
    (metadataNumbers lines start).Pairwise (· < ·) :=
  Text.pairwise_numbers isMetadataLine lines start

/-- **How metadata is counted**: one block for all of it above the first content line, and one for
each line of it below, which is noted with its number. It is reported exactly if that makes several
blocks. -/
theorem countBlocks_contentStart (lines : List (List Char)) (text : String) :
    (countBlocks lines).blocks =
      (if (lines.take (contentStart lines)).any isMetadataLine then 1 else 0) +
        (lines.drop (contentStart lines + 1)).countP isMetadataLine ∧
    (countBlocks lines).stray.Pairwise (· < ·) ∧
    (∀ n, n ∈ (countBlocks lines).stray ↔
      contentStart lines + 1 < n ∧ ∃ line ∈ lines[n - 1]?, isMetadataLine line = true) ∧
    (Wireframe.check text).filter (·.rule = "multiple_metadata_blocks") =
      let count := countBlocks (Text.lines text.toList)
      if 1 < count.blocks then [⟨.multipleMetadataBlocks count.blocks, count.stray⟩] else [] := by
  obtain ⟨hcount, hnumbers⟩ := metadata_fromContent lines (1 + contentStart lines)
  have hblocks := countBlocks_eq lines
  rw [length_aboveContent, hnumbers, hcount, aboveContent_eq_take] at hblocks
  rw [hblocks]
  refine ⟨rfl, metadataNumbers_pairwise _ _, fun n => ?_, ?_⟩
  · -- the number of a line is one more than its position
    have hfirst : 1 + contentStart lines + 1 = contentStart lines + 2 := by omega
    rw [hfirst, mem_metadataNumbers, belowContent, List.getElem?_drop]
    refine and_congr_right fun hle => ?_
    have hposition : contentStart lines + 1 + (n - (contentStart lines + 2)) = n - 1 := by omega
    rw [hposition]
  · exact filter_ofLines _ singleMetadataBlock (by simp [checks]) (Text.lines text.toList)

end Wireframe.Check
