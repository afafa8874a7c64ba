import Wireframe.Proofs.Drawing.WellFormed
import Wireframe.Proofs.Xml.Texts

/-!
# The text of a drawing

Read back, the texts of a drawing are the visible texts of the page in reading order, each without
the characters that a document cannot hold and with its line ends alike (`Svg.textsOf_ofDocument`).
Nothing else is lost, nothing comes twice, and nothing changes places. A carriage return is written
as it stands, and a reader takes it for a line feed, so a text that holds one is not given back as
it was (`Svg.not_readsBack_return`).

The proof follows a text on its way: what is visible of an element is what is written in the
shapes that it is drawn with (`Layout.texts_drawElement`), a shape is read back as the texts that
are written in it (`Shape.textsOf_node`), and the rest of a drawing holds none.
-/

namespace Wireframe

/-! ### What is visible of a page -/

mutual

/-- The texts that are visible of an element, in reading order. -/
def Element.visible : Element → List String
  | .heading _ content => [content]
  | .button content => [content]
  | .image description => [description]
  | .input label => [label]
  | .link content _ => [content]
  | .text content => [content]
  | .listItem content => [content]
  | .divider => []
  | .landmark name children => name :: Element.visibleAll children
  | .skipLink content => [content]

/-- The texts that are visible of elements, in reading order. -/
def Element.visibleAll : List Element → List String
  | [] => []
  | element :: rest => element.visible ++ Element.visibleAll rest

end

/-- The texts that are visible of a page: its title, if it is not empty, and the texts of its
elements. -/
def Document.visible (document : Document) : List String :=
  document.metadata.title?.toList ++ Element.visibleAll document.elements

variable {α : Type}

namespace Shape

mutual

/-- The texts that are written in a shape. -/
def texts : Shape α → List String
  | text shape => [shape.content]
  | rect _ => []
  | line .. => []
  | circle .. => []
  | group _ children => textsAll children

/-- The texts that are written in shapes. -/
def textsAll : List (Shape α) → List String
  | [] => []
  | shape :: rest => shape.texts ++ textsAll rest

end

theorem textsAll_append (shapes others : List (Shape α)) :
    textsAll (shapes ++ others) = textsAll shapes ++ textsAll others := by
  induction shapes with
  | nil => rfl
  | cons shape rest ih => rw [List.cons_append, textsAll, textsAll, ih, List.append_assoc]

end Shape

variable [Scalar α]

/-! ### From elements to shapes -/

namespace Layout

open Shape

mutual

/-- What is visible of an element is what is written in the shape that it is drawn with. -/
theorem texts_drawElement (theme : Theme α) (cursor : α) (element : Element) :
    (drawElement theme cursor element).1.texts = element.visible := by
  match element with
  | .heading .. | .button _ | .input _ | .image _ | .link .. | .skipLink _ | .text _
  | .listItem _ | .divider => rfl
  | .landmark name children =>
    have hchildren := textsAll_drawElements theme (drawLandmarkLabel theme cursor name).2 children
    rw [Element.visible, ← hchildren]
    rfl

theorem textsAll_drawElements (theme : Theme α) (cursor : α) (elements : List Element) :
    textsAll (drawElements theme cursor elements).1 = Element.visibleAll elements := by
  match elements with
  | [] => rfl
  | element :: rest =>
    rw [Element.visibleAll, ← texts_drawElement theme cursor element,
      ← textsAll_drawElements theme (drawElement theme cursor element).2 rest]
    rfl

end

/-- What is visible of a page is what is written in the shapes of its layout. -/
theorem textsAll_ofDocument (theme : Theme α) (document : Document) :
    textsAll (ofDocument theme document).shapes = document.visible := by
  have htitle : textsAll (titleShapes theme document.metadata.title?) =
      document.metadata.title?.toList := by
    cases document.metadata.title? <;> rfl
  rw [shapes_ofDocument, textsAll_append, textsAll_drawElements, htitle, Document.visible]

end Layout

/-! ### From shapes to markup and back -/

namespace Shape

open Xml Node Item

mutual

/-- A shape is read back as the texts that are written in it, without their illegal characters and
with their line ends alike. -/
theorem textsOf_node (shape : Shape α) (depth : ℕ) :
    textsOfAll "text".toList (items depth shape.node.unified) =
      shape.texts.map fun text => unifyLineEnds (text.toList.filter isChar) := by
  match shape with
  | text shape =>
    rw [node, textNode, unified, textsOfAll_items_text, (escaped_escape _).decode_unifyLineEnds,
      decode_escape]
    rfl
  | rect _ => exact textsOfAll_items_leaf (by decide) _ _
  | line .. => exact textsOfAll_items_leaf (by decide) _ _
  | circle .. => exact textsOfAll_items_leaf (by decide) _ _
  | group _ children =>
    rw [node, unified, textsOfAll_items_branch (by decide), textsOf_nodes children, texts]

theorem textsOf_nodes (shapes : List (Shape α)) (depth : ℕ) :
    textsOfAll "text".toList (itemsAll depth (unifiedAll (nodes shapes))) =
      (textsAll shapes).map fun text => unifyLineEnds (text.toList.filter isChar) := by
  match shapes with
  | [] => rfl
  | shape :: rest =>
    rw [nodes, unifiedAll, itemsAll, textsOfAll_append, textsOf_node shape, textsOf_nodes rest,
      textsAll, List.map_append]

end

end Shape

/-! ### The whole drawing -/

namespace Svg

open Xml Node Item

private theorem textsOfAll_remarks (metadata : Metadata) (tag : List Char) (depth : ℕ) :
    textsOfAll tag (itemsAll depth (unifiedAll (remarks metadata))) = [] := by
  rw [remarks]
  cases metadata.purpose? <;>
    simp [remark, unifiedAll, unified, itemsAll, textsOfAll_append, textsOfAll_items_comment]

/-- A drawing is read back as the texts that are written in the shapes of its layout. -/
private theorem textsOf_read?_ofDocument (theme : Theme α) (document : Document) :
    (read? (ofDocument theme document).toList).map (textsOf "text".toList) =
      some ((Shape.textsAll (Layout.ofDocument theme document).shapes).map fun text =>
        unifyLineEnds (text.toList.filter isChar)) := by
  have hdocument : (ofDocument theme document).toList =
      Xml.document (root theme document.metadata (Layout.ofDocument theme document)) :=
    String.toList_ofList
  have hroot := sound_root theme document.metadata (Layout.plain_ofDocument theme document)
  rw [hdocument, root, textsOf_document (by decide) hroot, ← Shape.textsOf_nodes _ 1]
  have hbackground (attributes : List Attribute) :
      textsOfAll "text".toList (items 1 (leaf "rect" attributes)) = [] :=
    textsOfAll_items_leaf (by decide) attributes 1
  simp only [unifiedAll_append, unifiedAll, unified, itemsAll_append, itemsAll, textsOfAll_append,
    textsOfAll_items_comment, background, textsOfAll_remarks, hbackground, textsOfAll,
    List.cons_append, List.nil_append]

/-- **The texts of a drawing are the visible texts of the page**, in reading order, without the
characters that a document cannot hold, and with their line ends alike. -/
theorem textsOf_ofDocument (theme : Theme α) (document : Document) :
    (read? (ofDocument theme document).toList).map (textsOf "text".toList) =
      some (document.visible.map fun text => unifyLineEnds (text.toList.filter isChar)) := by
  rw [textsOf_read?_ofDocument, Layout.textsAll_ofDocument]

/-- Whether a drawing is read back as the visible texts of the page with nothing lost but the
characters that a document cannot hold. -/
def ReadsBack (theme : Theme α) (document : Document) : Prop :=
  (read? (ofDocument theme document).toList).map (textsOf "text".toList) =
    some (document.visible.map fun text => text.toList.filter isChar)

/-- A carriage return is read back as a line feed. -/
theorem not_readsBack_return :
    ¬ ReadsBack (Theme.standard : Theme Float) (Document.ofText "a\rb") := by
  have hvisible : (Document.ofText "a\rb").visible = ["a\rb"] := by decide +kernel
  rw [ReadsBack, textsOf_read?_ofDocument, Layout.textsAll_ofDocument, hvisible]
  decide

end Svg

end Wireframe
