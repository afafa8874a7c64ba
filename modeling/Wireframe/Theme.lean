import Wireframe.Scalar

/-!
# Themes

A theme holds the measures, fonts and colours that pages are drawn with. The standard theme is a
grey one on a canvas 960 units wide; a theme file may replace any part of it.
-/

namespace Wireframe

/-- The weight of a font. -/
inductive FontWeight
  | normal
  | bold
  deriving DecidableEq, Repr

namespace FontWeight

/-- All weights. -/
def all : List FontWeight := [normal, bold]

/-- The name of a weight. -/
def name : FontWeight → String
  | normal => "normal"
  | bold => "bold"

/-- The weight of a given name. -/
def ofName? (name : String) : Option FontWeight := all.find? (·.name == name)

theorem ofName?_name (weight : FontWeight) : ofName? weight.name = some weight := by
  cases weight <;> decide

end FontWeight

/-- Size and weight of a style of text. -/
structure Font (α : Type) where
  /-- The size. -/
  size : α
  /-- The weight. -/
  weight : FontWeight

/-- The fonts of headings, text and labels. -/
structure Fonts (α : Type) where
  h1 : Font α
  h2 : Font α
  h3 : Font α
  h4 : Font α
  h5 : Font α
  h6 : Font α
  /-- The font of running text. -/
  body : Font α
  /-- The font of labels and captions. -/
  label : Font α
  /-- The family, the same for all text. -/
  family : String

/-- The colours. -/
structure Colors where
  background : String
  border : String
  text : String
  textLight : String
  buttonBackground : String
  buttonBorder : String
  imagePlaceholder : String
  landmarkBackground : String
  link : String

/-- Vertical distances. -/
structure Spacing (α : Type) where
  /-- After each landmark. -/
  afterLandmark : α
  /-- After each element. -/
  afterElement : α
  /-- Between parts that belong together. -/
  small : α

/-- The measures of buttons. -/
structure ButtonStyle (α : Type) where
  height : α
  borderRadius : α
  /-- The room on either side of the label. -/
  paddingX : α
  /-- The least width. -/
  minWidth : α
  /-- The width reckoned for each character of the label. -/
  charWidth : α

/-- The measures of form fields. -/
structure InputStyle (α : Type) where
  height : α
  borderRadius : α

/-- The measures of image placeholders. -/
structure ImageStyle (α : Type) where
  minHeight : α
  /-- The width as a part of the width for content. -/
  defaultWidth : α

/-- Everything that the look of a drawing depends on. -/
structure Theme (α : Type) where
  /-- The width of the canvas. -/
  pageWidth : α
  /-- The empty border around the content. -/
  padding : α
  fonts : Fonts α
  colors : Colors
  spacing : Spacing α
  button : ButtonStyle α
  input : InputStyle α
  image : ImageStyle α

/-- The font of a heading; a level other than one to six has the font of running text. -/
def Fonts.heading {α : Type} (fonts : Fonts α) : Nat → Font α
  | 1 => fonts.h1
  | 2 => fonts.h2
  | 3 => fonts.h3
  | 4 => fonts.h4
  | 5 => fonts.h5
  | 6 => fonts.h6
  | _ => fonts.body

/-! ### The standard theme -/

variable {α : Type} [Scalar α]

/-- The standard fonts. -/
def Fonts.standard : Fonts α where
  h1 := ⟨32.0, .bold⟩
  h2 := ⟨24.0, .bold⟩
  h3 := ⟨20.0, .bold⟩
  h4 := ⟨18.0, .bold⟩
  h5 := ⟨16.0, .bold⟩
  h6 := ⟨14.0, .bold⟩
  body := ⟨14.0, .normal⟩
  label := ⟨12.0, .normal⟩
  family := "Arial, sans-serif"

/-- The standard greys. -/
def Colors.standard : Colors where
  background := "#FFFFFF"
  border := "#CCCCCC"
  text := "#333333"
  textLight := "#666666"
  buttonBackground := "#F5F5F5"
  buttonBorder := "#999999"
  imagePlaceholder := "#E8E8E8"
  landmarkBackground := "#FAFAFA"
  link := "#0066CC"

/-- The standard distances. -/
def Spacing.standard : Spacing α where
  afterLandmark := 40.0
  afterElement := 16.0
  small := 8.0

/-- The standard button. -/
def ButtonStyle.standard : ButtonStyle α where
  height := 40.0
  borderRadius := 4.0
  paddingX := 24.0
  minWidth := 120.0
  charWidth := 8.0

/-- The standard form field. -/
def InputStyle.standard : InputStyle α where
  height := 40.0
  borderRadius := 4.0

/-- The standard image placeholder. -/
def ImageStyle.standard : ImageStyle α where
  minHeight := 120.0
  defaultWidth := 0.8

namespace Theme

/-- The standard theme. -/
def standard : Theme α where
  pageWidth := 960.0
  padding := 40.0
  fonts := .standard
  colors := .standard
  spacing := .standard
  button := .standard
  input := .standard
  image := .standard

/-- The width between the left and the right border. -/
def contentWidth (theme : Theme α) : α := theme.pageWidth - theme.padding * 2.0

end Theme

end Wireframe
