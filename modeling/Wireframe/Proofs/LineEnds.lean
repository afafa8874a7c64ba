import Wireframe.Check
import Wireframe.Drawing.Svg
import Wireframe.Highlight
import Wireframe.Proofs.Naming.Title

/-!
# Line ends make no difference

Texts come with line feeds or with carriage returns and line feeds at the ends of their lines. All
that is made of a text is the same either way (`alike_withReturns`).

Reading, checking and drawing depend on the lines of a text, which leave out a carriage return in
front of a line feed. So does naming, although it searches the whole text (`title?_congr`).
Highlighting takes every carriage return off the end of a row (`displayLines_withReturns`).
-/

namespace Wireframe

namespace Naming

/-- The title depends on the lines only. -/
theorem title?_congr {text other : String}
    (h : Text.lines text.toList = Text.lines other.toList) : title? text = title? other := by
  rw [title?, titleChars?_eq, h, ← titleChars?_eq, title?]

theorem fileName_congr {text other : String} (h : title? text = title? other) (today : Day) :
    fileName text today = fileName other today := by
  rw [fileName, fileSlug?, h, fileName, fileSlug?]

theorem importId_congr {text other : String} (h : title? text = title? other) (stem : String) :
    importId text stem = importId other stem := by
  rw [importId, h, importId]

end Naming

theorem Document.ofText_congr {text other : String}
    (h : Text.lines text.toList = Text.lines other.toList) : ofText text = ofText other := by
  rw [ofText, meanings, h, ofText, meanings]

theorem check_congr {text other : String}
    (h : Text.lines text.toList = Text.lines other.toList) : check text = check other := by
  rw [check, h, check]

namespace Highlight

theorem map_dropReturns_returnRows (rows : List (List Char)) :
    (Text.returnRows rows).map Text.dropReturns = rows.map Text.dropReturns := by
  fun_induction Text.returnRows rows with
  | case1 => rfl
  | case2 => rfl
  | case3 row rest _ ih =>
    rw [List.map_cons, List.map_cons, ih, Text.dropReturns_append_return]

/-- The lines that are highlighted are the same whether line feeds have carriage returns in front of
them or not. -/
theorem displayLines_withReturns (text : String) :
    displayLines (Text.withReturns text) = displayLines text := by
  rw [displayLines, Text.withReturns, String.toList_ofList, Text.rows_addReturns,
    map_dropReturns_returnRows, displayLines]

end Highlight

/-- What is made of two texts is the same: as a document, by the checks, as a drawing, in
highlighting and for a name. -/
structure Alike (text other : String) : Prop where
  document : Document.ofText text = Document.ofText other
  diagnostics : check text = check other
  drawing : ∀ {α : Type} [Scalar α] (theme : Theme α),
    Svg.ofText theme text = Svg.ofText theme other
  categories : Highlight.categories text = Highlight.categories other
  markup : Highlight.markup text = Highlight.markup other
  title : Naming.title? text = Naming.title? other
  fileName : ∀ today, Naming.fileName text today = Naming.fileName other today
  importId : ∀ stem, Naming.importId text stem = Naming.importId other stem

/-- **Line ends make no difference**: a text without carriage returns and the text with one in front
of every line feed are alike. -/
theorem alike_withReturns {text : String} (h : '\r' ∉ text.toList) :
    Alike (Text.withReturns text) text := by
  have hlines : Text.lines (Text.withReturns text).toList = Text.lines text.toList := by
    rw [Text.withReturns, String.toList_ofList, Text.lines_addReturns h]
  have hdocument := Document.ofText_congr hlines
  have hdisplay := Highlight.displayLines_withReturns text
  have htitle := Naming.title?_congr hlines
  exact {
    document := hdocument
    diagnostics := check_congr hlines
    drawing := fun theme => by rw [Svg.ofText, hdocument, Svg.ofText]
    categories := by rw [Highlight.categories, hdisplay, Highlight.categories]
    markup := by rw [Highlight.markup, hdisplay, Highlight.markup]
    title := htitle
    fileName := Naming.fileName_congr htitle
    importId := Naming.importId_congr htitle }

/-- A blank title that the search goes on from, a blank line, and no line feed at the end. -/
theorem alike_blankTitle :
    '\r' ∉ "Title: \n\n# Home\n[[Go]]".toList ∧
      Alike "Title: \r\n\r\n# Home\r\n[[Go]]" "Title: \n\n# Home\n[[Go]]" := by
  have hreturns : Text.withReturns "Title: \n\n# Home\n[[Go]]" =
      "Title: \r\n\r\n# Home\r\n[[Go]]" := by decide
  have hnone : '\r' ∉ "Title: \n\n# Home\n[[Go]]".toList := by decide
  exact ⟨hnone, hreturns ▸ alike_withReturns hnone⟩

end Wireframe
