import Wireframe.Proofs.Document.Entries
import Wireframe.Proofs.Drawing.WellFormed
import Wireframe.Proofs.Xml.Remarks

/-!
# The purpose of a page

A page says what it is for in a line `Page Purpose: …`, or in the short form `Purpose: …`, and its
drawing says so in a comment. Of each key the first line counts, as for all metadata. The comments
of a drawing are known as a whole (`Svg.comments_ofDocument`), and the one with the purpose is there
exactly if the document has one.

A blank long form hides the short one, though: then a page has no purpose, and its drawing no
comment for it, even if the short form has a value. This is the only case in which a written purpose
is lost (`Document.showsPurpose_iff`).
-/

namespace Wireframe

/-! ### The comments of a drawing -/

variable {α : Type} [Scalar α]

namespace Shape

open Xml

mutual

/-- Shapes are drawn without comments. -/
theorem comments_node (shape : Shape α) : (node shape).comments = [] := by
  match shape with
  | text _ | rect _ | line .. | circle .. => rfl
  | group _ children => rw [node, Node.comments, commentsAll_nodes children]

theorem commentsAll_nodes (shapes : List (Shape α)) : Node.commentsAll (nodes shapes) = [] := by
  match shapes with
  | [] => rfl
  | shape :: rest =>
    rw [nodes, Node.commentsAll, comments_node shape, commentsAll_nodes rest, List.append_nil]

end

end Shape

namespace Svg

open Xml

/-- A comment that says what a text is, as it is read. -/
def remarkText (caption text : String) : List Char :=
  ' ' :: (caption.toList ++ commentText text.toList) ++ [' ']

/-- The comments of a drawing, as they stand in it: the program, the title, the purpose if the page
has one, and two captions. -/
theorem comments_ofDocument (theme : Theme α) (document : Document) :
    (parse? (ofDocument theme document).toList).map Item.comments =
      some ([' ' :: ("Generated by " ++ generator).toList ++ [' '],
          remarkText "Original Title: " (document.metadata.title?.getD "Untitled")] ++
        document.metadata.purpose?.toList.map (remarkText "Purpose: ") ++
        [" Background ".toList, " Content ".toList]) := by
  have hdocument : (ofDocument theme document).toList =
      Xml.document (root theme document.metadata (Layout.ofDocument theme document)) :=
    String.toList_ofList
  have hroot := sound_root theme document.metadata (Layout.plain_ofDocument theme document)
  have hpurpose : Node.commentsAll (document.metadata.purpose?.map (remark "Purpose: ")).toList =
      document.metadata.purpose?.toList.map (remarkText "Purpose: ") := by
    cases document.metadata.purpose? <;> rfl
  rw [hdocument, root, Node.comments_document hroot, List.cons_append, List.cons_append,
    Node.commentsAll, Node.commentsAll_append, Node.commentsAll_append, Shape.commentsAll_nodes,
    remarks, Node.commentsAll, hpurpose]
  simp [Node.comments, Node.commentsAll, remark, remarkText, background]

/-- The comments of a drawing that say what the page is for. -/
def purposeRemarks (svg : String) : Option (List (List Char)) :=
  (parse? svg.toList).map fun root => root.comments.filter (" Purpose: ".toList.isPrefixOf ·)

theorem isPrefixOf_remarkText (text : String) :
    " Purpose: ".toList.isPrefixOf (remarkText "Purpose: " text) = true :=
  List.isPrefixOf_iff_prefix.mpr ⟨commentText text.toList ++ [' '], by simp [remarkText]⟩

theorem not_isPrefixOf_remarkText (text : String) :
    " Purpose: ".toList.isPrefixOf (remarkText "Original Title: " text) = false := by
  simp [remarkText, List.isPrefixOf]

/-- A drawing says what the page is for if the document does, and once. -/
theorem purposeRemarks_ofDocument (theme : Theme α) (document : Document) :
    purposeRemarks (ofDocument theme document) =
      some (document.metadata.purpose?.toList.map (remarkText "Purpose: ")) := by
  have hread := comments_ofDocument theme document
  rw [Option.map_eq_some_iff] at hread
  obtain ⟨root, hroot, hcomments⟩ := hread
  have hgenerator : " Purpose: ".toList.isPrefixOf
      (' ' :: ("Generated by " ++ generator).toList ++ [' ']) = false := by decide
  have hcaptions : [" Background ".toList, " Content ".toList].filter
      (" Purpose: ".toList.isPrefixOf ·) = [] := by decide
  have hpurpose : (document.metadata.purpose?.toList.map (remarkText "Purpose: ")).filter
      (" Purpose: ".toList.isPrefixOf ·) =
        document.metadata.purpose?.toList.map (remarkText "Purpose: ") := by
    refine List.filter_eq_self.mpr fun comment hcomment => ?_
    obtain ⟨text, -, rfl⟩ := List.mem_map.mp hcomment
    exact isPrefixOf_remarkText text
  rw [purposeRemarks, hroot, Option.map_some, hcomments, List.filter_append, List.filter_append,
    hcaptions, hpurpose, List.filter_cons_of_neg (by rw [hgenerator]; decide),
    List.filter_cons_of_neg (by rw [not_isPrefixOf_remarkText]; decide), List.filter_nil,
    List.nil_append, List.append_nil]

end Svg

namespace Document

open Metadata Line

/-! ### What a page says -/

/-- The value of a key that a text gives: the one of the first line with the key. Values come
trimmed, so a blank one is empty. -/
def firstValue? (text : String) (key : Key) : Option String :=
  (entries (Text.lines text.toList)).lookup key

/-- The purpose that is written in a text: the value of the long key, unless it is blank or there is
none, and otherwise that of the short key, unless it is blank or there is none. -/
def writtenPurpose? (text : String) : Option String :=
  (nonempty? (firstValue? text .pagePurpose)).or (nonempty? (firstValue? text .purpose))

/-- Whether a text gives a purpose by the short key and a blank one by the long key. -/
def HidesPurpose (text : String) : Prop :=
  firstValue? text .pagePurpose = some "" ∧
    ∃ value, value ≠ "" ∧ firstValue? text .purpose = some value

/-- Whether the purpose that is written in a text is that of its document, and is said in its
drawing, in a comment of its own. -/
structure ShowsPurpose (theme : Theme α) (text : String) : Prop where
  read : (ofText text).metadata.purpose? = writtenPurpose? text
  drawn : Svg.purposeRemarks (Svg.ofText theme text) =
    some ((writtenPurpose? text).toList.map (Svg.remarkText "Purpose: "))

/-- The document of a text has the purpose that is written in it, unless a blank one hides it. -/
theorem purpose?_ofText_iff (text : String) :
    (ofText text).metadata.purpose? = writtenPurpose? text ↔ ¬ HidesPurpose text := by
  rw [purpose?, get?_ofText, get?_ofText, writtenPurpose?, HidesPurpose, ← firstValue?,
    ← firstValue?]
  cases firstValue? text .pagePurpose with
  | none => simp [nonempty?]
  | some long =>
    by_cases hlong : long = ""
    · subst hlong
      cases firstValue? text .purpose with
      | none => simp [nonempty?]
      | some short =>
        by_cases hshort : short = "" <;> simp [nonempty?, hshort, Option.filter]
    · simp [nonempty?, hlong, Option.filter]

/-- **A written purpose is read and drawn**, unless a blank one in the long form hides one in the
short form. -/
theorem showsPurpose_iff (theme : Theme α) (text : String) :
    ShowsPurpose theme text ↔ ¬ HidesPurpose text := by
  rw [← purpose?_ofText_iff]
  refine ⟨fun h => h.read, fun hread => ⟨hread, ?_⟩⟩
  rw [Svg.ofText, Svg.purposeRemarks_ofDocument, hread]

/-- A blank line for the long key, and the short key below it. -/
theorem not_showsPurpose_checkout :
    ¬ ShowsPurpose (Theme.standard : Theme Float) "Page Purpose:\nPurpose: Checkout" := by
  intro hshows
  have hwritten : writtenPurpose? "Page Purpose:\nPurpose: Checkout" = some "Checkout" := by
    decide +kernel
  have hread : (ofText "Page Purpose:\nPurpose: Checkout").metadata.purpose? = none := by
    decide +kernel
  exact absurd (hread.symm.trans (hshows.read.trans hwritten)) (by decide)

end Document

end Wireframe
