import Wireframe.Proofs.Data
import Wireframe.Proofs.Decimal.Doubles
import Wireframe.Proofs.Store.Files
import Wireframe.Proofs.Toml.Tables
import Wireframe.Theme.File

/-!
# Saved themes

A theme that has been saved is the theme that is loaded.
-/

namespace Wireframe.Theme

open Data (fields?_of_nodup)
open Toml (AllWritable Inline IsBare)

/-! ### Numbers -/

/-- The numbers of a theme. -/
def numbers (theme : Theme Float) : List Float :=
  [theme.pageWidth, theme.padding, theme.fonts.h1.size, theme.fonts.h2.size, theme.fonts.h3.size,
    theme.fonts.h4.size, theme.fonts.h5.size, theme.fonts.h6.size, theme.fonts.body.size,
    theme.fonts.label.size, theme.spacing.afterLandmark, theme.spacing.afterElement,
    theme.spacing.small, theme.button.height, theme.button.borderRadius, theme.button.paddingX,
    theme.button.minWidth, theme.button.charWidth, theme.input.height, theme.input.borderRadius,
    theme.image.minHeight, theme.image.defaultWidth]

/-- Whether a number is written as a numeral that stands for it. -/
structure Faithful (x : Float) : Prop where
  inline : Inline (scalarData x)
  toDouble : Numeral.toDouble (Numeral.ofDouble x) = x

/-- A double that is a number is written as a numeral that stands for it. -/
theorem faithful_of_isNaN {x : Float} (h : x.isNaN = false) : Faithful x where
  inline := .number (Numeral.normal_ofDouble x) (Double.ofDouble_ne_nan h)
    (Double.overflows_ofDouble x)
  toDouble := Double.toDouble_ofDouble x

/-! ### Data -/

theorem scalar?_data {x : Float} (h : Faithful x) : scalar? (scalarData x) = some x :=
  congrArg some h.toDouble

theorem weight?_data (weight : FontWeight) : weight? (.text weight.name) = some weight :=
  FontWeight.ofName?_name weight

theorem font?_data {font : Font Float} (h : Faithful font.size) :
    font? true (fontData font) = some font := by
  rw [font?, fontData, fields?_of_nodup (by simp)]
  simp [List.lookup, Data.need, scalar?_data h, weight?_data]

theorem colors?_data (colors : Colors) : colors? true (colorsData colors) = some colors := by
  rw [colors?, colorsData, fields?_of_nodup (by simp)]
  simp [List.lookup, Data.orElse, Data.text?]

theorem spacing?_data {spacing : Spacing Float} (hlandmark : Faithful spacing.afterLandmark)
    (helement : Faithful spacing.afterElement) (hsmall : Faithful spacing.small) :
    spacing? true (spacingData spacing) = some spacing := by
  rw [spacing?, spacingData, fields?_of_nodup (by simp)]
  simp [List.lookup, Data.orElse, scalar?_data, *]

theorem button?_data {button : ButtonStyle Float} (hheight : Faithful button.height)
    (hradius : Faithful button.borderRadius) (hpadding : Faithful button.paddingX)
    (hwidth : Faithful button.minWidth) (hchar : Faithful button.charWidth) :
    button? true (buttonData button) = some button := by
  rw [button?, buttonData, fields?_of_nodup (by simp)]
  simp [List.lookup, Data.orElse, scalar?_data, *]

theorem input?_data {input : InputStyle Float} (hheight : Faithful input.height)
    (hradius : Faithful input.borderRadius) : input? true (inputData input) = some input := by
  rw [input?, inputData, fields?_of_nodup (by simp)]
  simp [List.lookup, Data.orElse, scalar?_data, *]

theorem image?_data {image : ImageStyle Float} (hheight : Faithful image.minHeight)
    (hwidth : Faithful image.defaultWidth) : image? true (imageData image) = some image := by
  rw [image?, imageData, fields?_of_nodup (by simp)]
  simp [List.lookup, Data.orElse, scalar?_data, *]

/-- Fonts as data, in the order in which they are written. -/
def arrangedFonts (fonts : Fonts Float) : Data :=
  .record
    [("family", .text fonts.family), ("h1", fontData fonts.h1), ("h2", fontData fonts.h2),
      ("h3", fontData fonts.h3), ("h4", fontData fonts.h4), ("h5", fontData fonts.h5),
      ("h6", fontData fonts.h6), ("body", fontData fonts.body), ("label", fontData fonts.label)]

theorem arranged_fields (theme : Theme Float) : Toml.arranged theme.fields =
    [("page_width", scalarData theme.pageWidth), ("padding", scalarData theme.padding),
      ("fonts", arrangedFonts theme.fonts), ("colors", colorsData theme.colors),
      ("spacing", spacingData theme.spacing), ("button", buttonData theme.button),
      ("input", inputData theme.input), ("image", imageData theme.image)] := rfl

/-- The fonts are read back, also as the file arranges them. -/
theorem fonts?_arranged {fonts : Fonts Float} (h : ∀ font ∈ [fonts.h1, fonts.h2, fonts.h3, fonts.h4,
    fonts.h5, fonts.h6, fonts.body, fonts.label], Faithful font.size) :
    fonts? true (arrangedFonts fonts) = some fonts := by
  simp only [List.forall_mem_cons, List.not_mem_nil, false_imp_iff, implies_true, and_true] at h
  obtain ⟨h1, h2, h3, h4, h5, h6, hbody, hlabel⟩ := h
  rw [fonts?, arrangedFonts, fields?_of_nodup (by simp)]
  simp [List.lookup, Data.orElse, Data.text?, font?_data, *]

/-- A theme is read back from its data as the file arranges them. -/
theorem ofData?_arranged {theme : Theme Float} (h : ∀ x ∈ theme.numbers, Faithful x) :
    ofData? true (.record (Toml.arranged theme.fields)) = some theme := by
  simp only [numbers, List.forall_mem_cons, List.not_mem_nil, false_imp_iff, implies_true,
    and_true] at h
  obtain ⟨hwidth, hpadding, h1, h2, h3, h4, h5, h6, hbody, hlabel, hlandmark, helement, hsmall,
    hheight, hradius, hpaddingX, hminWidth, hcharWidth, hinputHeight, hinputRadius, hminHeight,
    hdefaultWidth⟩ := h
  have hfonts : fonts? true (arrangedFonts theme.fonts) = some theme.fonts :=
    fonts?_arranged (by simp [*])
  rw [arranged_fields, ofData?, fields?_of_nodup (by simp)]
  simp [List.lookup, Data.orElse, scalar?_data, colors?_data, spacing?_data, button?_data,
    input?_data, image?_data, *]

/-- Every name of a field of a theme needs no quotes. -/
theorem isBare_names : ∀ name ∈ ["page_width", "padding", "fonts", "colors", "spacing", "button",
    "input", "image", "size", "weight", "h1", "h2", "h3", "h4", "h5", "h6", "body", "label",
    "family", "background", "border", "text", "text_light", "button_bg", "button_border",
    "image_placeholder", "landmark_bg", "link", "section", "element", "small", "height",
    "border_radius", "padding_x", "min_width", "char_width", "min_height", "default_width"],
    IsBare name := by decide

theorem writable_scalarData {x : Float} (h : Faithful x) : Toml.Writable (scalarData x) := h.inline

theorem writable_fontData {font : Font Float} (h : Faithful font.size) :
    Toml.Writable (fontData font) := by
  simp [fontData, Toml.Writable, AllWritable, isBare_names, writable_scalarData h, Inline.text]

/-- A theme can be written, if its numbers are kept as data. -/
theorem allWritable_fields {theme : Theme Float} (h : ∀ x ∈ theme.numbers, Faithful x) :
    AllWritable theme.fields := by
  have hbare := isBare_names
  simp only [numbers, List.forall_mem_cons, List.not_mem_nil, false_imp_iff, implies_true,
    and_true] at h hbare
  simp [fields, fontsData, colorsData, spacingData, buttonData, inputData, imageData,
    Toml.Writable, AllWritable, hbare, h, writable_fontData, writable_scalarData,
    Inline.text]

/-- A theme that has been written reads back. -/
theorem ofToml?_toToml {theme : Theme Float} (h : ∀ x ∈ theme.numbers, Faithful x) :
    (ofToml? theme.toToml : Option (Theme Float)) = some theme := by
  have hnodup : (theme.fields.map Prod.fst).Nodup := by simp [fields]
  rw [ofToml?, toToml, Toml.read?_write hnodup (allWritable_fields h), Option.bind_some,
    ofData?_arranged h]

/-! ### Files -/

variable {fs fs' : FileSystem} {path : Path}

/-- To save a theme is to write the text of its data. -/
theorem save_apply (theme : Theme Float) (path : Path) (fs : FileSystem) :
    save (m := StateM FileSystem) theme path fs =
      ((fs.writeBytes path theme.toToml.toUTF8).1.mapError .disk,
        (fs.writeBytes path theme.toToml.toUTF8).2) := by
  rw [save, FileSystem.bind_apply, FileSystem.writeText_apply]
  rfl

/-- To load a theme is to read its text. -/
theorem load_of_readBytes {text : String} (h : fs.readBytes path = .ok text.toUTF8) :
    load (m := StateM FileSystem) path fs = (ofText (α := Float) text, fs) := by
  rw [load, FileSystem.bind_apply, FileSystem.readText_apply, h, Except.bind,
    Disk.textOfBytes_toUTF8]
  rfl

/-- **A theme that has been saved is the theme that is loaded**, whatever its texts are and unless a
number in it is none. -/
theorem load_of_save (theme : Theme Float) (hnumbers : ∀ x ∈ theme.numbers, x.isNaN = false)
    (h : save (m := StateM FileSystem) theme path fs = (.ok (), fs')) :
    load (m := StateM FileSystem) path fs' = (.ok theme, fs') := by
  have hfaithful : ∀ x ∈ theme.numbers, Faithful x := fun x hx => faithful_of_isNaN (hnumbers x hx)
  have hwritten : fs.writeBytes path theme.toToml.toUTF8 = (.ok (), fs') := by
    rw [save_apply] at h
    generalize fs.writeBytes path theme.toToml.toUTF8 = result at h ⊢
    obtain ⟨fault | _, fs''⟩ := result
    · cases h
    · cases h
      rfl
  rw [load_of_readBytes (FileSystem.readBytes_writeBytes hwritten), ofText,
    ofToml?_toToml hfaithful]

/-- A theme whose font has quotes, a backslash and a line break in its name. -/
def quoting : Theme Float :=
  { standard with fonts := { Fonts.standard with family := "\"Old\" 'n' \\new\n" } }

theorem writeBytes_theme_toml (bytes : ByteArray) :
    ((FileSystem.empty []).writeBytes ⟨"theme.toml"⟩ bytes).1 = .ok () := rfl

/-- A theme whose texts need every form of quoting survives. -/
theorem load_of_save_quoting : ∃ fs', (∀ x ∈ quoting.numbers, x.isNaN = false) ∧
    save (m := StateM FileSystem) quoting ⟨"theme.toml"⟩ (.empty []) = (.ok (), fs') ∧
    load (m := StateM FileSystem) ⟨"theme.toml"⟩ fs' = (.ok quoting, fs') := by
  have hnumbers : ∀ x ∈ quoting.numbers, x.isNaN = false := by decide +kernel
  have hsave : save (m := StateM FileSystem) quoting ⟨"theme.toml"⟩ (.empty []) =
      (.ok (), ((FileSystem.empty []).writeBytes ⟨"theme.toml"⟩ quoting.toToml.toUTF8).2) := by
    rw [save_apply, writeBytes_theme_toml]
    rfl
  exact ⟨_, hnumbers, hsave, load_of_save quoting hnumbers hsave⟩

end Wireframe.Theme
