import Wireframe.Check.DuplicateLinks
import Wireframe.Proofs.Line.Readings
import Wireframe.Proofs.Line.Rules

/-!
# Blanks to fill in

A bracketed run of underscores is a blank in a form and not a link. The check for duplicate links
knows such blanks wherever they stand (`Check.isFillIn`). Reading a text leaves them out only where
a line opens with one, or is read as something else before it is searched for links; every other
blank becomes a link, for instance that of a form field whose blank has a gap
(`Document.not_fillInFree_gap`). So a document is free of such links exactly if all lines with
blanks are of these kinds (`Document.fillInFree_ofText_iff`).

A document holds what its lines stand for: one line more adds its elements, at the top level or in
the open landmark (`Outline.withinAny_add`), and all lines together those of each (`Document.holds_ofText`).
-/

namespace Wireframe

/-! ### What a document holds -/

namespace Element

/-- Whether an element is another one or is in it, at any depth. -/
inductive Within (element : Element) : Element → Prop
  | self : Within element element
  | child {name : String} {children : List Element} {inner : Element} (hmem : inner ∈ children)
      (hwithin : Within element inner) : Within element (.landmark name children)

/-- Whether an element is one of some others or is in one of them. -/
def WithinAny (element : Element) (elements : List Element) : Prop :=
  ∃ outer ∈ elements, element.Within outer

variable {element : Element}

theorem not_withinAny_nil : ¬ element.WithinAny [] := by
  rintro ⟨outer, hmem, -⟩
  exact List.not_mem_nil hmem

theorem withinAny_append {es es' : List Element} :
    element.WithinAny (es ++ es') ↔ element.WithinAny es ∨ element.WithinAny es' := by
  simp only [WithinAny, List.mem_append, or_and_right, exists_or]

theorem withinAny_landmark (h : element.isLandmark = false) {name : String}
    {children : List Element} :
    element.WithinAny [.landmark name children] ↔ element.WithinAny children := by
  have hsingle {outer : Element} : element.WithinAny [outer] ↔ element.Within outer := by
    simp [WithinAny]
  rw [hsingle]
  constructor
  · intro hwithin
    cases hwithin with
    | self => exact Bool.noConfusion h
    | child hmem hwithin => exact ⟨_, hmem, hwithin⟩
  · rintro ⟨inner, hmem, hwithin⟩
    exact .child hmem hwithin

theorem withinAny_iff_mem {es : List Element} (h : ∀ e ∈ es, e.isLandmark = false) :
    element.WithinAny es ↔ element ∈ es := by
  constructor
  · rintro ⟨outer, hmem, hwithin⟩
    cases hwithin with
    | self => exact hmem
    | child => exact Bool.noConfusion (h _ hmem)
  · exact fun hmem => ⟨element, hmem, .self⟩

end Element

namespace Outline

open Line

variable {element : Element}

/-- One line more: what is held in addition is in the elements that the line stands for. -/
theorem withinAny_add (h : element.isLandmark = false) (outline : Outline) (meaning : Meaning) :
    element.WithinAny (outline.add meaning).closedElements ↔
      element.WithinAny outline.closedElements ∨ element.WithinAny meaning.content := by
  cases meaning with
  | entry key value => exact (or_iff_left Element.not_withinAny_nil).symm
  | landmark name =>
    have hclosed : (outline.add (.landmark name)).closedElements =
        outline.closedElements ++ [.landmark name []] := rfl
    rw [hclosed, Element.withinAny_append, Element.withinAny_landmark h]
    rfl
  | elements es =>
    obtain ⟨metadata, elements, _ | ⟨name, children⟩⟩ := outline
    · exact Element.withinAny_append
    · have hclosed : (Outline.add ⟨metadata, elements, some (name, children)⟩
          (.elements es)).closedElements = elements ++ [.landmark name (children ++ es)] := rfl
      rw [hclosed, closedElements, Element.withinAny_append, Element.withinAny_append,
        Element.withinAny_landmark h, Element.withinAny_landmark h, Element.withinAny_append,
        or_assoc]
      rfl

/-- All lines: what is held in addition is in the elements that one of the lines stands for. -/
theorem withinAny_foldl_add (h : element.isLandmark = false) (outline : Outline)
    (meanings : List Meaning) :
    element.WithinAny (meanings.foldl add outline).closedElements ↔
      element.WithinAny outline.closedElements ∨
        element.WithinAny (meanings.flatMap Meaning.content) := by
  induction meanings generalizing outline with
  | nil => simp [Element.WithinAny]
  | cons meaning rest ih =>
    rw [List.foldl_cons, ih, withinAny_add h, List.flatMap_cons, Element.withinAny_append, or_assoc]

end Outline

namespace Document

/-- Whether an element is in a document, at any depth. -/
def Holds (document : Document) (element : Element) : Prop := element.WithinAny document.elements

/-- What a document holds but for landmarks is what its lines stand for. -/
theorem holds_ofText {element : Element} (h : element.isLandmark = false) (text : String) :
    (ofText text).Holds element ↔
      ∃ line ∈ Text.lines text.toList, ∃ found ∈ Line.read? line, element ∈ found.2.content := by
  have hempty : ¬ element.WithinAny Outline.empty.closedElements := Element.not_withinAny_nil
  refine (Outline.withinAny_foldl_add h .empty (meanings text.toList)).trans ?_
  rw [or_iff_right hempty, Element.withinAny_iff_mem (not_landmark_of_mem_meanings _)]
  simp only [meanings, List.mem_flatMap, List.mem_filterMap, Option.map_eq_some_iff,
    Option.mem_def]
  constructor
  · rintro ⟨_, ⟨line, hline, found, hfound, rfl⟩, hmem⟩
    exact ⟨line, hline, found, hfound, hmem⟩
  · rintro ⟨line, hline, found, hfound, hmem⟩
    exact ⟨_, ⟨line, hline, found, hfound, rfl⟩, hmem⟩

end Document

/-! ### Lines that are read as links -/

namespace Line

/-- The rules that are tried before the one for links. -/
def Rule.beforeLinks : List Rule := Rule.inOrder.takeWhile (· ≠ .links)

/-- Whether a line, once trimmed, has no blank to fill in or is not searched for links: it opens
with a blank, or a rule before the one for links applies to it. -/
def LeavesOutFillIns (line : List Char) : Prop :=
  (∃ span ∈ links line, Check.isFillIn span.text = true) →
    ['[', '_'] <+: line ∨ ∃ rule ∈ Rule.beforeLinks, rule.meaning? line ≠ none

/-- A line stands for its links if no rule before the one for links applies to it. -/
theorem exists_link_mem_read?_iff {line : List Char} {text : String} {url : Option String} :
    (∃ found ∈ read? line, .link text url ∈ found.2.content) ↔
      (∀ rule ∈ Rule.beforeLinks, rule.meaning? (Text.trim line) = none) ∧
        ∃ span ∈ proseLinks (Text.trim line), span.element = .link text url := by
  constructor
  · rintro ⟨⟨rule, meaning⟩, hread, hmem⟩
    rw [Option.mem_def, read?, Option.ite_none_left_eq_some] at hread
    obtain rfl : rule = .links := Rule.eq_of_mem (applies_of_findSome? hread.2).2 hmem
    obtain ⟨hbefore, hlinks⟩ := firstRule?_eq_some_iff.mp hread.2
    obtain ⟨-, rfl⟩ := someElements_eq_some_iff.mp hlinks
    exact ⟨hbefore, List.mem_map.mp hmem⟩
  · rintro ⟨hbefore, span, hspan, helement⟩
    have hmem : span.element ∈ (proseLinks (Text.trim line)).map LinkSpan.element :=
      List.mem_map_of_mem hspan
    have htrim : Text.trim line ≠ [] := fun hnil => by
      rw [hnil] at hspan
      exact List.not_mem_nil hspan
    have hlinks : Rule.links.meaning? (Text.trim line) =
        some (.elements ((proseLinks (Text.trim line)).map LinkSpan.element)) :=
      someElements_eq_some_iff.mpr ⟨List.ne_nil_of_mem hmem, rfl⟩
    refine ⟨(.links, .elements ((proseLinks (Text.trim line)).map LinkSpan.element)), ?_,
      helement ▸ hmem⟩
    rw [Option.mem_def, read?, Option.ite_none_left_eq_some]
    exact ⟨by simpa using htrim, firstRule?_eq_some_iff.mpr ⟨hbefore, hlinks⟩⟩

end Line

namespace Document

/-- Whether no link of a document has a blank to fill in for its text. -/
def FillInFree (document : Document) : Prop :=
  ∀ text url, document.Holds (.link text url) → Check.isFillIn text.toList = false

/-- **When no blank is taken for a link**: exactly if each line with a blank opens with one or is
read by a rule before the one for links. -/
theorem fillInFree_ofText_iff (text : String) : (ofText text).FillInFree ↔
    ∀ line ∈ Text.lines text.toList, Line.LeavesOutFillIns (Text.trim line) := by
  have hholds (content : String) (url : Option String) : (ofText text).Holds (.link content url) ↔
      ∃ line ∈ Text.lines text.toList, ∃ found ∈ Line.read? line,
        .link content url ∈ found.2.content := holds_ofText rfl text
  -- line by line: a link with a blank is in the document if a line is searched for links and has it
  simp only [FillInFree, hholds, Line.exists_link_mem_read?_iff, Line.mem_proseLinks]
  constructor
  · rintro hfree line hline ⟨span, hspan, hfillIn⟩
    by_contra hlinks
    push Not at hlinks
    have hnot := hfree _ _ ⟨line, hline, hlinks.2, span, ⟨hlinks.1, hspan⟩, rfl⟩
    rw [String.toList_ofList, hfillIn] at hnot
    exact Bool.noConfusion hnot
  · rintro hlines content url ⟨line, hline, hbefore, span, ⟨hopening, hspan⟩, helement⟩
    obtain ⟨rfl, -⟩ := Element.link.inj helement
    rw [String.toList_ofList, ← Bool.not_eq_true]
    intro hfillIn
    rcases hlines line hline ⟨span, hspan, hfillIn⟩ with hprefix | ⟨rule, hrule, happlies⟩
    · exact hopening hprefix
    · exact happlies (hbefore rule hrule)

/-- A form field whose blank has a gap is taken for a link. -/
theorem not_fillInFree_gap : ¬ (ofText "Name: [__ __]").FillInFree := by
  intro hfree
  have helements : (ofText "Name: [__ __]").elements = [.link "__ __" none] := by rfl
  have hholds : (ofText "Name: [__ __]").Holds (.link "__ __" none) := by
    rw [Holds, helements]
    exact ⟨_, List.mem_singleton.mpr rfl, .self⟩
  exact absurd (hfree _ _ hholds) (by decide)

end Document

end Wireframe
