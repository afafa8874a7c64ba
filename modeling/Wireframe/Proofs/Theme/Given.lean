import Wireframe.Theme.Data

/-!
# What theme files give

A theme file gives values to keys, each the names of the tables on the way and of the field in the
last one (`Data.at?`). Here is, key by key, what the file makes of the standard theme
(`Theme.overlay`), what every key asks for (`Theme.Fits`), and what is in conflict with that
(`Theme.Conflicts`). None of it depends on how a file is read.
-/

namespace Wireframe

/-- What data give to a key: what is found in the records that the parts of the key name. -/
def Data.at? : Data → List String → Option Data
  | data, [] => some data
  | .record fields, name :: key => (List.lookup name fields).bind fun value => value.at? key
  | _, _ :: _ => none

/-- What is given to keys. -/
abbrev Given := List String → Option Data

namespace Data

theorem at?_nil (data : Data) : data.at? [] = some data := by
  cases data <;> rfl

theorem at?_record (fields : List (String × Data)) (name : String) :
    (record fields).at? [name] = List.lookup name fields := by
  rw [at?]
  simp [at?_nil]

/-- A longer key is followed name by name. -/
theorem at?_cons (data : Data) (name : String) (key : List String) :
    data.at? (name :: key) = (data.at? [name]).bind fun value => value.at? key := by
  cases data with
  | record fields => rw [at?_record, at?]
  | _ => rfl

end Data

/-! ### Parts in place of standard ones -/

namespace Theme

variable {α : Type} [Scalar α]

/-- The measure that is given, or else the standard one. -/
def measure (standard : α) : Option Data → α
  | some (.number value) => Scalar.ofNumeral value
  | _ => standard

/-- The text that is given, or else the standard one. -/
def wording (standard : String) : Option Data → String
  | some (.text value) => value
  | _ => standard

/-- The weight that is given, or else the standard one. -/
def weighting (standard : FontWeight) : Option Data → FontWeight
  | some (.text "normal") => .normal
  | some (.text "bold") => .bold
  | _ => standard

end Theme

open Theme (measure wording weighting)

variable {α : Type} [Scalar α]

/-- A font with the parts that are given in place of standard ones. -/
def Font.overlay (standard : Font α) (given : Given) : Font α where
  size := measure standard.size (given ["size"])
  weight := weighting standard.weight (given ["weight"])

/-- Fonts with the parts that are given in place of standard ones. -/
def Fonts.overlay (given : Given) : Fonts α where
  h1 := Font.overlay Fonts.standard.h1 fun key => given ("h1" :: key)
  h2 := Font.overlay Fonts.standard.h2 fun key => given ("h2" :: key)
  h3 := Font.overlay Fonts.standard.h3 fun key => given ("h3" :: key)
  h4 := Font.overlay Fonts.standard.h4 fun key => given ("h4" :: key)
  h5 := Font.overlay Fonts.standard.h5 fun key => given ("h5" :: key)
  h6 := Font.overlay Fonts.standard.h6 fun key => given ("h6" :: key)
  body := Font.overlay Fonts.standard.body fun key => given ("body" :: key)
  label := Font.overlay Fonts.standard.label fun key => given ("label" :: key)
  family := wording (Fonts.standard : Fonts α).family (given ["family"])

/-- Colours with the parts that are given in place of standard ones. -/
def Colors.overlay (given : Given) : Colors where
  background := wording Colors.standard.background (given ["background"])
  border := wording Colors.standard.border (given ["border"])
  text := wording Colors.standard.text (given ["text"])
  textLight := wording Colors.standard.textLight (given ["text_light"])
  buttonBackground := wording Colors.standard.buttonBackground (given ["button_bg"])
  buttonBorder := wording Colors.standard.buttonBorder (given ["button_border"])
  imagePlaceholder := wording Colors.standard.imagePlaceholder (given ["image_placeholder"])
  landmarkBackground := wording Colors.standard.landmarkBackground (given ["landmark_bg"])
  link := wording Colors.standard.link (given ["link"])

/-- Distances with the parts that are given in place of standard ones. -/
def Spacing.overlay (given : Given) : Spacing α where
  afterLandmark := measure Spacing.standard.afterLandmark (given ["section"])
  afterElement := measure Spacing.standard.afterElement (given ["element"])
  small := measure Spacing.standard.small (given ["small"])

/-- A button with the parts that are given in place of standard ones. -/
def ButtonStyle.overlay (given : Given) : ButtonStyle α where
  height := measure ButtonStyle.standard.height (given ["height"])
  borderRadius := measure ButtonStyle.standard.borderRadius (given ["border_radius"])
  paddingX := measure ButtonStyle.standard.paddingX (given ["padding_x"])
  minWidth := measure ButtonStyle.standard.minWidth (given ["min_width"])
  charWidth := measure ButtonStyle.standard.charWidth (given ["char_width"])

/-- A form field with the parts that are given in place of standard ones. -/
def InputStyle.overlay (given : Given) : InputStyle α where
  height := measure InputStyle.standard.height (given ["height"])
  borderRadius := measure InputStyle.standard.borderRadius (given ["border_radius"])

/-- An image placeholder with the parts that are given in place of standard ones. -/
def ImageStyle.overlay (given : Given) : ImageStyle α where
  minHeight := measure ImageStyle.standard.minHeight (given ["min_height"])
  defaultWidth := measure ImageStyle.standard.defaultWidth (given ["default_width"])

namespace Theme

/-- The standard theme with the parts that are given in place of its own. -/
def overlay (given : Given) : Theme α where
  pageWidth := measure (standard : Theme α).pageWidth (given ["page_width"])
  padding := measure (standard : Theme α).padding (given ["padding"])
  fonts := .overlay fun key => given ("fonts" :: key)
  colors := .overlay fun key => given ("colors" :: key)
  spacing := .overlay fun key => given ("spacing" :: key)
  button := .overlay fun key => given ("button" :: key)
  input := .overlay fun key => given ("input" :: key)
  image := .overlay fun key => given ("image" :: key)

/-! ### Keys -/

/-- The names of the fonts. -/
def fontNames : List String := ["h1", "h2", "h3", "h4", "h5", "h6", "body", "label"]

/-- The names of the colours. -/
def colorNames : List String :=
  ["background", "border", "text", "text_light", "button_bg", "button_border", "image_placeholder",
    "landmark_bg", "link"]

/-- The names of the distances. -/
def spacingNames : List String := ["section", "element", "small"]

/-- The names of the measures of buttons. -/
def buttonNames : List String := ["height", "border_radius", "padding_x", "min_width", "char_width"]

/-- The names of the measures of form fields. -/
def inputNames : List String := ["height", "border_radius"]

/-- The names of the measures of images. -/
def imageNames : List String := ["min_height", "default_width"]

/-- The keys of the tables. -/
def tableKeys : List (List String) :=
  [["fonts"], ["colors"], ["spacing"], ["button"], ["input"], ["image"]] ++
    fontNames.map (["fonts", ·])

/-- The keys of the measures. -/
def measureKeys : List (List String) :=
  [["page_width"], ["padding"]] ++ fontNames.map (["fonts", ·, "size"]) ++
    spacingNames.map (["spacing", ·]) ++ buttonNames.map (["button", ·]) ++
    inputNames.map (["input", ·]) ++ imageNames.map (["image", ·])

/-- The keys of the texts. -/
def textKeys : List (List String) := ["fonts", "family"] :: colorNames.map (["colors", ·])

/-- The keys of the weights. -/
def weightKeys : List (List String) := fontNames.map (["fonts", ·, "weight"])

/-! ### What keys may be given -/

/-- Whether nothing is given, or a table. -/
def IsTable (given : Option Data) : Prop := ∀ value ∈ given, ∃ fields, value = .record fields

/-- Whether nothing is given, or a measure. -/
def IsMeasure (given : Option Data) : Prop := ∀ value ∈ given, ∃ numeral, value = .number numeral

/-- Whether nothing is given, or a text. -/
def IsText (given : Option Data) : Prop := ∀ value ∈ given, ∃ text, value = .text text

/-- Whether nothing is given, or a weight. -/
def IsWeight (given : Option Data) : Prop :=
  ∀ value ∈ given, value = .text "normal" ∨ value = .text "bold"

/-- Whether data lack the size or the weight of a font. A list gives them by their order. -/
def Lacks (data : Data) : Prop :=
  (data.at? ["size"] = none ∨ data.at? ["weight"] = none) ∧
    ∀ items, data = .list items → items.length < 2

/-- Whether every known key that is given anything is given what it asks for, and every font that is
given has both its size and its weight. -/
structure Fits (data : Data) : Prop where
  tables : ∀ key ∈ tableKeys, IsTable (data.at? key)
  measures : ∀ key ∈ measureKeys, IsMeasure (data.at? key)
  texts : ∀ key ∈ textKeys, IsText (data.at? key)
  weights : ∀ key ∈ weightKeys, IsWeight (data.at? key)
  fonts : ∀ name ∈ fontNames, ∀ value ∈ data.at? ["fonts", name], ¬ Lacks value

/-- Why data do not describe a theme. -/
inductive Conflicts (data : Data) : Prop
  /-- A text or a truth value for a measure. -/
  | measure (key : List String) (hkey : key ∈ measureKeys) (value : Data)
      (hgiven : data.at? key = some value)
      (hvalue : (∃ text, value = .text text) ∨ ∃ flag, value = .flag flag)
  /-- A number or a truth value for a text or a weight. -/
  | text (key : List String) (hkey : key ∈ textKeys ++ weightKeys) (value : Data)
      (hgiven : data.at? key = some value)
      (hvalue : (∃ numeral, value = .number numeral) ∨ ∃ flag, value = .flag flag)
  /-- A weight that there is none of. -/
  | weight (key : List String) (hkey : key ∈ weightKeys) (text : String)
      (hgiven : data.at? key = some (.text text)) (hnormal : text ≠ "normal")
      (hbold : text ≠ "bold")
  /-- A font without its size or its weight. -/
  | font (name : String) (hname : name ∈ fontNames) (value : Data)
      (hgiven : data.at? ["fonts", name] = some value) (hlacks : Lacks value)

end Theme

end Wireframe
