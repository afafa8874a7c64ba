import Wireframe.Document
import Wireframe.Drawing.Shape

/-!
# Layout

Elements are laid out from top to bottom, all of them at the left border; nothing stands side by
side. The state is the height at which the next element begins, the *cursor*, with the shapes placed
so far. Placing an element puts its shape behind these and moves the cursor below it.

A landmark is drawn around what is in it: its background begins at the landmark's own cursor and
ends a little below the cursor that its children have reached. The background comes first in the
drawing, but its height is known last. So the label and the children of a landmark are placed into a
flow of their own, which holds none of the shapes placed before, and go into one group when the
landmark is closed.
-/

namespace Wireframe

/-- Shapes placed so far and the height at which the next element begins. -/
structure Flow (α : Type) where
  cursor : α
  shapes : List (Shape α)

/-- A finished layout: shapes and the height of the canvas they need. -/
structure Layout (α : Type) where
  shapes : List (Shape α)
  height : α

namespace Layout

variable {α : Type} [Scalar α]

/-- A text in a font, with none of the optional properties. -/
def plainText (theme : Theme α) (x y : α) (font : Font α) (fill content : String) :
    TextShape α where
  x := x
  y := y
  size := font.size
  weight := none
  fill := fill
  family := theme.fonts.family
  anchor := none
  decoration := none
  uppercase := false
  content := content

/-- A heading: one line of text in the font of its level. -/
def drawHeading (theme : Theme α) (cursor : α) (level : Nat) (content : String) : Shape α × α :=
  let font := theme.fonts.heading level
  let y := cursor + font.size
  let shape := plainText theme theme.padding y font theme.colors.text content
  (.text { shape with weight := some font.weight }, y + theme.spacing.afterElement)

/-- The width of a button with a label of so many characters. -/
def buttonWidth (theme : Theme α) (characters : Nat) : α :=
  let labelWidth := Scalar.ofNat characters * theme.button.charWidth
  Scalar.larger (labelWidth + theme.button.paddingX * 2.0) theme.button.minWidth

/-- A button: a frame with the label in its middle. -/
def drawButton (theme : Theme α) (cursor : α) (content : String) : Shape α × α :=
  let style := theme.button
  let body := theme.fonts.body
  let width := buttonWidth theme content.length
  let frame : RectShape α :=
    { x := theme.padding
      y := cursor
      width := width
      height := style.height
      cornerRadius := some style.borderRadius
      fill := theme.colors.buttonBackground
      stroke := some theme.colors.buttonBorder
      dash := none }
  let label := plainText theme (theme.padding + width / 2.0) (cursor + style.height / 2.0 + 5.0)
    body theme.colors.text content
  (.group "button"
      [.rect frame, .text { label with weight := some body.weight, anchor := some "middle" }],
    cursor + style.height + theme.spacing.afterElement)

/-- A form field: a caption with a box under it. -/
def drawInput (theme : Theme α) (cursor : α) (content : String) : Shape α × α :=
  let font := theme.fonts.label
  let labelY := cursor + font.size
  let boxY := labelY + theme.spacing.small
  let caption := plainText theme theme.padding labelY font theme.colors.textLight content
  let field : RectShape α :=
    { x := theme.padding
      y := boxY
      width := theme.contentWidth
      height := theme.input.height
      cornerRadius := some theme.input.borderRadius
      fill := theme.colors.background
      stroke := some theme.colors.border
      dash := none }
  (.group "input-field" [.text { caption with weight := some font.weight }, .rect field],
    boxY + theme.input.height + theme.spacing.afterElement)

/-- An image: a crossed-out frame with the description in its middle. -/
def drawImage (theme : Theme α) (cursor : α) (content : String) : Shape α × α :=
  let contentWidth := theme.contentWidth
  let width := contentWidth * theme.image.defaultWidth
  let height := theme.image.minHeight
  let x := theme.padding + (contentWidth - width) / 2.0
  let border := theme.colors.border
  let frame : RectShape α :=
    { x := x
      y := cursor
      width := width
      height := height
      cornerRadius := none
      fill := theme.colors.imagePlaceholder
      stroke := some border
      dash := none }
  let caption := plainText theme (x + width / 2.0) (cursor + height / 2.0 + 5.0) theme.fonts.label
    theme.colors.textLight content
  (.group "image-placeholder"
      [.rect frame,
        .line x cursor (x + width) (cursor + height) border,
        .line (x + width) cursor x (cursor + height) border,
        .text { caption with anchor := some "middle" }],
    cursor + height + theme.spacing.afterElement)

/-- A link: underlined text. -/
def drawLink (theme : Theme α) (cursor : α) (content : String) : Shape α × α :=
  let body := theme.fonts.body
  let y := cursor + body.size
  let shape := plainText theme theme.padding y body theme.colors.link content
  (.text { shape with decoration := some "underline" }, y + theme.spacing.afterElement)

/-- Running text on one line. -/
def drawText (theme : Theme α) (cursor : α) (content : String) : Shape α × α :=
  let body := theme.fonts.body
  let y := cursor + body.size
  (.text (plainText theme theme.padding y body theme.colors.text content),
    y + theme.spacing.afterElement)

/-- A bullet: a dot with text beside it. -/
def drawListItem (theme : Theme α) (cursor : α) (content : String) : Shape α × α :=
  let body := theme.fonts.body
  let y := cursor + body.size
  let bulletX := theme.padding + 10.0
  (.group "list-item"
      [.circle bulletX (y - 5.0) 3.0 theme.colors.text,
        .text (plainText theme (bulletX + 15.0) y body theme.colors.text content)],
    y + theme.spacing.afterElement)

/-- A horizontal rule across the content. -/
def drawDivider (theme : Theme α) (cursor : α) : Shape α × α :=
  let y := cursor + theme.spacing.small
  (.line theme.padding y (theme.padding + theme.contentWidth) y theme.colors.border,
    y + theme.spacing.afterElement)

/-- The label of a landmark, with the cursor below it. -/
def drawLandmarkLabel (theme : Theme α) (cursor : α) (name : String) : Shape α × α :=
  let font := theme.fonts.label
  let y := cursor + font.size
  let label := plainText theme theme.padding y font theme.colors.textLight name
  (.text { label with weight := some .bold, uppercase := true }, y + theme.spacing.afterElement)

/-- The background of a landmark that begins at one cursor and whose content ends at another. -/
def landmarkBackground (theme : Theme α) (top bottom : α) : RectShape α where
  x := theme.padding / 2.0
  y := top
  width := theme.pageWidth - theme.padding
  height := bottom - top + theme.spacing.small
  cornerRadius := none
  fill := theme.colors.landmarkBackground
  stroke := some theme.colors.border
  dash := some "4,4"

end Layout

namespace Flow

variable {α : Type} [Scalar α]

/-- Nothing placed yet: the first element begins at the upper border. -/
def start (theme : Theme α) : Flow α := ⟨theme.padding, []⟩

/-- Puts a shape behind those that are there, with the cursor below it. -/
def put (flow : Flow α) (drawn : Shape α × α) : Flow α := ⟨drawn.2, flow.shapes ++ [drawn.1]⟩

/-- The flow inside a landmark: it begins at the cursor that is reached and with the label, without
the shapes placed outside. -/
def openLandmark (theme : Theme α) (flow : Flow α) (name : String) : Flow α :=
  { flow with shapes := [] }.put (Layout.drawLandmarkLabel theme flow.cursor name)

/-- Closes a landmark: behind the shapes placed outside comes one group, the background with what
has been placed inside. -/
def closeLandmark (theme : Theme α) (outside inside : Flow α) : Flow α :=
  let background := Layout.landmarkBackground theme outside.cursor inside.cursor
  outside.put
    (.group "landmark" (.rect background :: inside.shapes),
      inside.cursor + theme.spacing.afterLandmark)

mutual

/-- Places an element below what is there. -/
def place (theme : Theme α) (flow : Flow α) : Element → Flow α
  | .heading level content => flow.put (Layout.drawHeading theme flow.cursor level content)
  | .button content => flow.put (Layout.drawButton theme flow.cursor content)
  | .input content => flow.put (Layout.drawInput theme flow.cursor content)
  | .image content => flow.put (Layout.drawImage theme flow.cursor content)
  | .link content _ => flow.put (Layout.drawLink theme flow.cursor content)
  | .skipLink content => flow.put (Layout.drawLink theme flow.cursor content)
  | .text content => flow.put (Layout.drawText theme flow.cursor content)
  | .listItem content => flow.put (Layout.drawListItem theme flow.cursor content)
  | .divider => flow.put (Layout.drawDivider theme flow.cursor)
  | .landmark name children =>
    flow.closeLandmark theme ((flow.openLandmark theme name).placeAll theme children)

/-- Places elements one under the other. -/
def placeAll (theme : Theme α) (flow : Flow α) : List Element → Flow α
  | [] => flow
  | element :: rest => (flow.place theme element).placeAll theme rest

end

/-- Places the title of the page: a heading of level 1 with a little more space below. -/
def placeTitle (theme : Theme α) (flow : Flow α) (title : String) : Flow α :=
  let placed := flow.put (Layout.drawHeading theme flow.cursor 1 title)
  { placed with cursor := placed.cursor + theme.spacing.small }

/-- The finished layout: below the last element there is the lower border. -/
def finish (theme : Theme α) (flow : Flow α) : Layout α :=
  ⟨flow.shapes, flow.cursor + theme.padding⟩

end Flow

namespace Layout

variable {α : Type} [Scalar α]

/-- The flow of a document's title, if it has one. -/
def afterTitle (theme : Theme α) (title? : Option String) : Flow α :=
  match title? with
  | some title => (Flow.start theme).placeTitle theme title
  | none => .start theme

/-- The layout of a document: its title, if it has one, and its elements. -/
def ofDocument (theme : Theme α) (document : Document) : Layout α :=
  ((afterTitle theme document.metadata.title?).placeAll theme document.elements).finish theme

end Layout

end Wireframe
