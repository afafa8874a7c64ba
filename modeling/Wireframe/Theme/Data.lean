import Wireframe.Data
import Wireframe.Theme
import Wireframe.Toml.Reader
import Wireframe.Toml.Writer

/-!
# Themes as data

A theme as structured data and back. Data may leave out any part of a theme, which then is the
standard one; only a font has to give both its size and its weight. What a theme does not know is
passed over. A theme file is such data in TOML.
-/

namespace Wireframe.Theme

variable {α : Type} [Scalar α]

open Data (orElse need)

/-! ### From data -/

/-- A measure. -/
def scalar? (data : Data) : Option α := data.number?.map Scalar.ofNumeral

/-- A weight by its name. The name may also be that of the only field of a record, if the field is
empty. -/
def weight? : Data → Option FontWeight
  | .text name => FontWeight.ofName? name
  | .record [(name, .list [])] => FontWeight.ofName? name
  | .record [(name, .record [])] => FontWeight.ofName? name
  | _ => none

/-- A font, with both its fields. -/
def font? (surplus : Bool) (data : Data) : Option (Font α) :=
  match data.fields? surplus ["size", "weight"] with
  | some [size, weight] => do some ⟨← need scalar? size, ← need weight? weight⟩
  | _ => none

/-- Fonts. -/
def fonts? (surplus : Bool) (data : Data) : Option (Fonts α) :=
  let standard : Fonts α := .standard
  match data.fields? surplus ["h1", "h2", "h3", "h4", "h5", "h6", "body", "label", "family"] with
  | some [h1, h2, h3, h4, h5, h6, body, label, family] => do
    some
      { h1 := ← orElse (font? surplus) standard.h1 h1
        h2 := ← orElse (font? surplus) standard.h2 h2
        h3 := ← orElse (font? surplus) standard.h3 h3
        h4 := ← orElse (font? surplus) standard.h4 h4
        h5 := ← orElse (font? surplus) standard.h5 h5
        h6 := ← orElse (font? surplus) standard.h6 h6
        body := ← orElse (font? surplus) standard.body body
        label := ← orElse (font? surplus) standard.label label
        family := ← orElse Data.text? standard.family family }
  | _ => none

/-- Colours. -/
def colors? (surplus : Bool) (data : Data) : Option Colors :=
  let standard : Colors := .standard
  match data.fields? surplus ["background", "border", "text", "text_light", "button_bg",
      "button_border", "image_placeholder", "landmark_bg", "link"] with
  | some [background, border, text, textLight, buttonBackground, buttonBorder, imagePlaceholder,
      landmarkBackground, link] => do
    some
      { background := ← orElse Data.text? standard.background background
        border := ← orElse Data.text? standard.border border
        text := ← orElse Data.text? standard.text text
        textLight := ← orElse Data.text? standard.textLight textLight
        buttonBackground := ← orElse Data.text? standard.buttonBackground buttonBackground
        buttonBorder := ← orElse Data.text? standard.buttonBorder buttonBorder
        imagePlaceholder := ← orElse Data.text? standard.imagePlaceholder imagePlaceholder
        landmarkBackground := ← orElse Data.text? standard.landmarkBackground landmarkBackground
        link := ← orElse Data.text? standard.link link }
  | _ => none

/-- Distances. -/
def spacing? (surplus : Bool) (data : Data) : Option (Spacing α) :=
  let standard : Spacing α := .standard
  match data.fields? surplus ["section", "element", "small"] with
  | some [afterLandmark, afterElement, small] => do
    some
      { afterLandmark := ← orElse scalar? standard.afterLandmark afterLandmark
        afterElement := ← orElse scalar? standard.afterElement afterElement
        small := ← orElse scalar? standard.small small }
  | _ => none

/-- The measures of buttons. -/
def button? (surplus : Bool) (data : Data) : Option (ButtonStyle α) :=
  let standard : ButtonStyle α := .standard
  match data.fields? surplus
      ["height", "border_radius", "padding_x", "min_width", "char_width"] with
  | some [height, borderRadius, paddingX, minWidth, charWidth] => do
    some
      { height := ← orElse scalar? standard.height height
        borderRadius := ← orElse scalar? standard.borderRadius borderRadius
        paddingX := ← orElse scalar? standard.paddingX paddingX
        minWidth := ← orElse scalar? standard.minWidth minWidth
        charWidth := ← orElse scalar? standard.charWidth charWidth }
  | _ => none

/-- The measures of form fields. -/
def input? (surplus : Bool) (data : Data) : Option (InputStyle α) :=
  let standard : InputStyle α := .standard
  match data.fields? surplus ["height", "border_radius"] with
  | some [height, borderRadius] => do
    some
      { height := ← orElse scalar? standard.height height
        borderRadius := ← orElse scalar? standard.borderRadius borderRadius }
  | _ => none

/-- The measures of images. -/
def image? (surplus : Bool) (data : Data) : Option (ImageStyle α) :=
  let standard : ImageStyle α := .standard
  match data.fields? surplus ["min_height", "default_width"] with
  | some [minHeight, defaultWidth] => do
    some
      { minHeight := ← orElse scalar? standard.minHeight minHeight
        defaultWidth := ← orElse scalar? standard.defaultWidth defaultWidth }
  | _ => none

/-- The theme that data describe. `surplus` says that items which a list has too many do not
matter. -/
def ofData? (surplus : Bool) (data : Data) : Option (Theme α) :=
  match data.fields? surplus ["page_width", "padding", "fonts", "colors", "spacing", "button",
      "input", "image"] with
  | some [pageWidth, padding, fonts, colors, spacing, button, input, image] => do
    some
      { pageWidth := ← orElse scalar? (standard : Theme α).pageWidth pageWidth
        padding := ← orElse scalar? (standard : Theme α).padding padding
        fonts := ← orElse (fonts? surplus) .standard fonts
        colors := ← orElse (colors? surplus) .standard colors
        spacing := ← orElse (spacing? surplus) .standard spacing
        button := ← orElse (button? surplus) .standard button
        input := ← orElse (input? surplus) .standard input
        image := ← orElse (image? surplus) .standard image }
  | _ => none

/-! ### To data -/

/-- A measure as data. -/
def scalarData (x : α) : Data := .number (Scalar.numeral x)

/-- A font as data. -/
def fontData (font : Font α) : Data :=
  .record [("size", scalarData font.size), ("weight", .text font.weight.name)]

/-- Fonts as data. -/
def fontsData (fonts : Fonts α) : Data :=
  .record
    [("h1", fontData fonts.h1), ("h2", fontData fonts.h2), ("h3", fontData fonts.h3),
      ("h4", fontData fonts.h4), ("h5", fontData fonts.h5), ("h6", fontData fonts.h6),
      ("body", fontData fonts.body), ("label", fontData fonts.label),
      ("family", .text fonts.family)]

/-- Colours as data. -/
def colorsData (colors : Colors) : Data :=
  .record
    [("background", .text colors.background), ("border", .text colors.border),
      ("text", .text colors.text), ("text_light", .text colors.textLight),
      ("button_bg", .text colors.buttonBackground), ("button_border", .text colors.buttonBorder),
      ("image_placeholder", .text colors.imagePlaceholder),
      ("landmark_bg", .text colors.landmarkBackground), ("link", .text colors.link)]

/-- Distances as data. -/
def spacingData (spacing : Spacing α) : Data :=
  .record
    [("section", scalarData spacing.afterLandmark), ("element", scalarData spacing.afterElement),
      ("small", scalarData spacing.small)]

/-- The measures of buttons as data. -/
def buttonData (button : ButtonStyle α) : Data :=
  .record
    [("height", scalarData button.height), ("border_radius", scalarData button.borderRadius),
      ("padding_x", scalarData button.paddingX), ("min_width", scalarData button.minWidth),
      ("char_width", scalarData button.charWidth)]

/-- The measures of form fields as data. -/
def inputData (input : InputStyle α) : Data :=
  .record
    [("height", scalarData input.height), ("border_radius", scalarData input.borderRadius)]

/-- The measures of images as data. -/
def imageData (image : ImageStyle α) : Data :=
  .record
    [("min_height", scalarData image.minHeight), ("default_width", scalarData image.defaultWidth)]

/-- The fields of a theme. -/
def fields (theme : Theme α) : List (String × Data) :=
  [("page_width", scalarData theme.pageWidth), ("padding", scalarData theme.padding),
    ("fonts", fontsData theme.fonts), ("colors", colorsData theme.colors),
    ("spacing", spacingData theme.spacing), ("button", buttonData theme.button),
    ("input", inputData theme.input), ("image", imageData theme.image)]

/-! ### Theme files -/

/-- The theme that the text of a theme file describes. -/
def ofToml? (text : String) : Option (Theme α) := (Toml.read? text).bind (ofData? true)

/-- The text of the theme file for a theme. -/
def toToml (theme : Theme α) : String := Toml.write theme.fields

end Wireframe.Theme
