import Wireframe.Theme

/-!
# Shapes

What a drawing is made of: texts, rectangles, lines and circles, and named groups of them. Positions
are on a canvas whose origin is the upper left corner; texts stand on their base line.
-/

namespace Wireframe

/-- A run of text. -/
structure TextShape (α : Type) where
  x : α
  y : α
  size : α
  weight : Option FontWeight
  fill : String
  family : String
  /-- What part of the text stands at `x`; its start if nothing is said. -/
  anchor : Option String
  decoration : Option String
  /-- Whether the text is shown in upper case. -/
  uppercase : Bool
  content : String

/-- A rectangle. -/
structure RectShape (α : Type) where
  x : α
  y : α
  width : α
  height : α
  cornerRadius : Option α
  fill : String
  stroke : Option String
  dash : Option String

/-- One thing to draw. -/
inductive Shape (α : Type)
  | text (shape : TextShape α)
  | rect (shape : RectShape α)
  | line (x1 y1 x2 y2 : α) (stroke : String)
  | circle (cx cy r : α) (fill : String)
  /-- Shapes that belong together, under a name. -/
  | group (className : String) (children : List (Shape α))

end Wireframe
