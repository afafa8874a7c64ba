import Wireframe.Drawing.Svg
import Wireframe.Proofs.Check.WrittenLines
import Wireframe.Proofs.Document.Sections
import Wireframe.Proofs.Text.Lines

/-!
# Blank lines only separate

A blank line can stand between any two lines of a page without changing what the page says
(`blankLine_separates`). The document and its drawing stay the same, also if the blank line stands
between lines of metadata or inside a landmark. The checks report the same as well, apart from the
numbers of the lines below, which are one higher.

All of these see only the lines that are written. A blank line leaves them as they are and moves the
numbers of those behind it (`written_insert`).
-/

namespace Wireframe

/-! ### Written lines -/

/-- A document is made of its written lines, whatever their numbers. -/
theorem meanings_eq_written (cs : List Char) :
    meanings cs =
      ((Check.written (Text.lines cs)).map (·.1)).filterMap fun line =>
        (Line.read? line).map (·.2) := by
  rw [List.filterMap_map, Check.filterMap_written, ← List.filterMap_map, Check.numbered,
    List.zipIdx_map_fst, meanings]
  intro line number hblank
  rw [Function.comp_apply, Line.read?_eq_none_iff.mpr hblank, Option.map_none]

/-- The number that a line has once another line stands behind the first ones. -/
def shifted (count n : ℕ) : ℕ := if count < n then n + 1 else n

theorem shifted_injective (count : ℕ) : (shifted count).Injective := by
  intro m n h
  unfold shifted at h
  split_ifs at h <;> omega

theorem map_shifted_above (lines : List (List Char)) :
    (lines.zipIdx 1).map (Prod.map id (shifted lines.length)) = lines.zipIdx 1 := by
  refine (List.map_congr_left fun entry hentry => ?_).trans (List.map_id _)
  have hlast := List.snd_lt_of_mem_zipIdx hentry
  have hsame : shifted lines.length entry.2 = entry.2 := if_neg (by omega)
  exact Prod.ext rfl hsame

theorem map_shifted_below (count : ℕ) (lines : List (List Char)) :
    (lines.zipIdx (1 + count)).map (Prod.map id (shifted count)) =
      lines.zipIdx (1 + (1 + count)) := by
  rw [← List.map_snd_add_zipIdx_eq_zipIdx (k := 1 + count)]
  refine List.map_congr_left fun entry hentry => ?_
  have hfirst := List.le_snd_of_mem_zipIdx hentry
  have hnext : shifted count entry.2 = entry.2 + 1 := if_pos (by omega)
  exact Prod.ext rfl hnext

/-- A blank line adds nothing to the written lines and moves those behind it. -/
theorem written_insert {blank : List Char} (h : Text.allBlank blank = true)
    (above below : List (List Char)) :
    Check.written (above ++ blank :: below) =
      (Check.written (above ++ below)).map (Prod.map id (shifted above.length)) := by
  -- the lines above keep their numbers, and those below have the next ones
  have hnumbered : Check.numbered (above ++ blank :: below) =
      (above.zipIdx 1).map (Prod.map id (shifted above.length)) ++
        (blank, 1 + above.length) ::
          (below.zipIdx (1 + above.length)).map (Prod.map id (shifted above.length)) := by
    rw [map_shifted_above, map_shifted_below, Check.numbered, List.zipIdx_append, List.zipIdx_cons,
      Nat.add_comm (1 + above.length) 1]
  rw [Check.written, hnumbered, List.filter_append, List.filter_cons_of_neg (by simp [h]),
    ← List.filter_append, ← List.map_append, List.filter_map, Check.written, Check.numbered,
    List.zipIdx_append]
  rfl

/-! ### Texts -/

theorem lines_append (above below : String) :
    Text.lines (above ++ "\n" ++ below).toList =
      Text.lines (above ++ "\n").toList ++ Text.lines below.toList := by
  rw [String.toList_append, String.toList_append, List.append_assoc]
  exact Text.lines_append_newline above.toList below.toList

theorem lines_insert {blank : String} (h : '\n' ∉ blank.toList) (above below : String) :
    Text.lines (above ++ "\n" ++ blank ++ "\n" ++ below).toList =
      Text.lines (above ++ "\n").toList ++
        Text.dropReturn blank.toList :: Text.lines below.toList := by
  have habove : Text.lines (above ++ "\n" ++ blank ++ "\n").toList =
      Text.lines (above ++ "\n").toList ++ [Text.dropReturn blank.toList] := by
    have hline : Text.lines (blank ++ "\n").toList = [Text.dropReturn blank.toList] := by
      rw [String.toList_append]
      exact Text.lines_newline h
    rw [String.append_assoc, lines_append, hline]
  rw [lines_append, habove, List.append_assoc, List.singleton_append]

/-- **Blank lines only separate.** A line of blanks between two lines of a text changes neither the
document nor the drawing with any theme, and in what is reported it adds one to the numbers of the
lines behind it. -/
theorem blankLine_separates (above blank below : String)
    (hblank : Text.allBlank blank.toList = true) (hline : '\n' ∉ blank.toList) :
    Document.ofText (above ++ "\n" ++ blank ++ "\n" ++ below) =
        Document.ofText (above ++ "\n" ++ below) ∧
      (∀ {α : Type} [Scalar α] (theme : Theme α),
        Svg.ofText theme (above ++ "\n" ++ blank ++ "\n" ++ below) =
          Svg.ofText theme (above ++ "\n" ++ below)) ∧
      check (above ++ "\n" ++ blank ++ "\n" ++ below) =
        (check (above ++ "\n" ++ below)).map
          (Diagnostic.renumber (shifted (Text.lines (above ++ "\n").toList).length)) := by
  have hwritten : Check.written (Text.lines (above ++ "\n" ++ blank ++ "\n" ++ below).toList) =
      (Check.written (Text.lines (above ++ "\n" ++ below).toList)).map
        (Prod.map id (shifted (Text.lines (above ++ "\n").toList).length)) := by
    rw [lines_insert hline, lines_append, written_insert (Text.allBlank_dropReturn hblank)]
  have hdocument : Document.ofText (above ++ "\n" ++ blank ++ "\n" ++ below) =
      Document.ofText (above ++ "\n" ++ below) := by
    rw [Document.ofText, meanings_eq_written, hwritten, List.map_map, Document.ofText,
      meanings_eq_written]
    rfl
  refine ⟨hdocument, fun theme => ?_, Check.ofLines_renumber (shifted_injective _) hwritten⟩
  rw [Svg.ofText, hdocument, Svg.ofText]

/-- A blank line between two equal links: the line of the first keeps its number, and those of the
second and of what is wrong further below are one higher. -/
theorem blankLine_separates_links :
    Text.allBlank " \t\r".toList = true ∧ '\n' ∉ " \t\r".toList ∧
      check ("Title: A\n# A\n[x]" ++ "\n" ++ " \t\r" ++ "\n" ++ "[x]\n### B\nURL: /b") =
        [⟨.headingLevelSkip 1 3 6, [6]⟩, ⟨.multipleMetadataBlocks 2, [7]⟩,
          ⟨.duplicateLink "x" none [3, 5], [3, 5]⟩] := by
  have hblank : Text.allBlank " \t\r".toList = true := by decide
  have hline : '\n' ∉ " \t\r".toList := by decide
  obtain ⟨-, -, hcheck⟩ :=
    blankLine_separates "Title: A\n# A\n[x]" " \t\r" "[x]\n### B\nURL: /b" hblank hline
  exact ⟨hblank, hline, hcheck.trans (by decide)⟩

end Wireframe
