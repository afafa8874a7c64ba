import Wireframe.Document.Reading
import Wireframe.Drawing.Layout
import Wireframe.Xml.Node

/-!
# Drawings as SVG

A layout is written as an SVG document: a comment for each of the program, the title and the
purpose, a background of the size of the canvas, and the shapes. Text that comes from the page or
the theme is escaped wherever it goes; the words that the layout itself chooses need no escaping.
-/

namespace Wireframe

variable {α : Type} [Scalar α]

namespace Shape

/-- An attribute with a number as its value. -/
def number (name : String) (value : α) : Xml.Attribute := ⟨name, (Scalar.numeral value).text⟩

/-- An attribute with a word of the layout's own as its value. -/
def word (name value : String) : Xml.Attribute := ⟨name, value.toList⟩

/-- An attribute that is there only if it has a value. -/
def ifAny {β : Type} (make : β → Xml.Attribute) : Option β → List Xml.Attribute
  | some value => [make value]
  | none => []

/-- The attributes of a thin outline. -/
def outline (stroke : String) : List Xml.Attribute :=
  [.ofText "stroke" stroke, word "stroke-width" "1"]

/-- The node of a text. -/
def textNode (shape : TextShape α) : Xml.Node :=
  .text "text"
    ([number "x" shape.x, number "y" shape.y, number "font-size" shape.size] ++
      ifAny (fun weight => word "font-weight" weight.name) shape.weight ++
      [.ofText "fill" shape.fill, .ofText "font-family" shape.family] ++
      ifAny (word "text-anchor") shape.anchor ++
      ifAny (word "text-decoration") shape.decoration ++
      if shape.uppercase then [word "text-transform" "uppercase"] else [])
    (Xml.escape shape.content.toList)

/-- The node of a rectangle. -/
def rectNode (shape : RectShape α) : Xml.Node :=
  .leaf "rect"
    ([number "x" shape.x, number "y" shape.y, number "width" shape.width,
        number "height" shape.height] ++
      ifAny (number "rx") shape.cornerRadius ++ [.ofText "fill" shape.fill] ++
      (shape.stroke.map outline).getD [] ++ ifAny (word "stroke-dasharray") shape.dash)

mutual

/-- The node of a shape. -/
def node : Shape α → Xml.Node
  | text shape => textNode shape
  | rect shape => rectNode shape
  | line x1 y1 x2 y2 stroke =>
    .leaf "line"
      ([number "x1" x1, number "y1" y1, number "x2" x2, number "y2" y2] ++ outline stroke)
  | circle cx cy r fill =>
    .leaf "circle" [number "cx" cx, number "cy" cy, number "r" r, .ofText "fill" fill]
  | group className children => .branch "g" [word "class" className] (nodes children)

/-- The nodes of shapes. -/
def nodes : List (Shape α) → List Xml.Node
  | [] => []
  | shape :: rest => node shape :: nodes rest

end

/-- A shape as markup at some depth. -/
def markup (depth : Nat) (shape : Shape α) : String := String.ofList ((node shape).write depth)

end Shape

namespace Svg

/-- The name and the version of the program, as drawings show it. -/
def generator : String := "wiretext 0.1.0"

/-- A comment that says what a text is. -/
def remark (caption text : String) : Xml.Node :=
  .comment (caption.toList ++ Xml.commentText text.toList)

/-- The comments about a page: its title, and its purpose if it has one. -/
def remarks (metadata : Metadata) : List Xml.Node :=
  remark "Original Title: " (metadata.title?.getD "Untitled") ::
    (metadata.purpose?.map (remark "Purpose: ")).toList

/-- The attributes of the canvas. -/
def canvas (width height : α) : List Xml.Attribute :=
  [Shape.number "width" width, Shape.number "height" height,
    Shape.word "xmlns" "http://www.w3.org/2000/svg",
    Shape.word "viewBox" ("0 0 " ++ Scalar.text width ++ " " ++ Scalar.text height)]

/-- The background of a canvas. -/
def background (width height : α) (color : String) : Xml.Node :=
  .leaf "rect" [Shape.number "width" width, Shape.number "height" height, .ofText "fill" color]

/-- The drawing of a layout of a page with the given metadata. -/
def root (theme : Theme α) (metadata : Metadata) (layout : Layout α) : Xml.Node :=
  .branch "svg" (canvas theme.pageWidth layout.height)
    (.comment ("Generated by " ++ generator).toList :: remarks metadata ++
      [.comment "Background".toList,
        background theme.pageWidth layout.height theme.colors.background,
        .comment "Content".toList] ++ Shape.nodes layout.shapes)

/-- The drawing of a document. -/
def ofDocument (theme : Theme α) (document : Document) : String :=
  String.ofList
    (Xml.document (root theme document.metadata (Layout.ofDocument theme document)))

/-- The drawing of a page's text. -/
def ofText (theme : Theme α) (text : String) : String := ofDocument theme (.ofText text)

end Svg

end Wireframe
