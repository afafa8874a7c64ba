import Wireframe.Proofs.Theme.Given
import Wireframe.Proofs.Theme.RoundTrip
import Wireframe.Proofs.Toml.Names

/-!
# Themes that are given in part

A theme file may give any of the parts of a theme. The theme is then the standard one but for these
parts (`Theme.load_overlay`): what a key is given replaces the part that belongs to this key and no
other, and what other keys are given does not matter. A file is refused if it gives a text or a
truth value for a measure, a number or a truth value for a text, a weight that there is none of, or
a font without its size or its weight.

Every table of a theme is read by what is given to the keys inside it (`Theme.Overlays`); that no
name is given twice makes sure that all of it is found.
-/

namespace Wireframe

namespace Data

variable {data value : Data} {fields : List (String × Data)} {name : String}

/-- Whatever a name stands for in distinct data is distinct. -/
theorem Distinct.at? (h : data.Distinct) (hat : data.at? [name] = some value) :
    value.Distinct := by
  cases data with
  | record fields =>
    rw [at?_record] at hat
    obtain ⟨before, after, rfl, -⟩ := List.lookup_eq_some_iff.mp hat
    exact (distinct_record_iff.mp h).2 (name, value) (by simp)
  | _ => cases hat

/-- No name is given twice, so a record is read by what it gives to each name. -/
theorem fields?_of_distinct (h : Distinct (record fields)) (surplus : Bool)
    (names : List String) : (record fields).fields? surplus names =
      some (names.map fun name => (record fields).at? [name]) := by
  simp only [at?_record]
  exact fields?_of_nodup (distinct_record_iff.mp h).1

end Data

namespace Theme

variable {α : Type} [Scalar α]

/-! ### Single values -/

theorem orElse_scalar?_eq_some_iff {standard x : α} {given : Option Data} :
    Data.orElse scalar? standard given = some x ↔ IsMeasure given ∧ measure standard given = x := by
  rcases given with _ | _ | _ | _ | _ | _ | _ | _ | _ <;>
    simp [Data.orElse, scalar?, Data.number?, IsMeasure, measure]

theorem orElse_text?_eq_some_iff {standard x : String} {given : Option Data} :
    Data.orElse Data.text? standard given = some x ↔
      IsText given ∧ wording standard given = x := by
  rcases given with _ | _ | _ | _ | _ | _ | _ | _ | _ <;>
    simp [Data.orElse, Data.text?, IsText, wording]

/-! ### Tables -/

/-- Reading a table puts what is given in place of what is standard: nothing if there is no table,
what fits in it if there is one, and whatever is read is sound. -/
structure Overlays {β : Type} (read? : Data → Option β) (standard : β) (Suits Sound : Given → Prop)
    (overlay : Given → β) : Prop where
  overlay_none : overlay (fun _ => none) = standard
  sound_none : Sound fun _ => none
  sound : ∀ {value b}, value.Distinct → read? value = some b → Sound value.at?
  read : ∀ {value}, value.Distinct → IsTable (some value) → Suits value.at? →
    read? value = some (overlay value.at?)

/-- Whether what is given to each of these names is of a kind. -/
def Each (kind : Option Data → Prop) (names : List String) (given : Given) : Prop :=
  ∀ name ∈ names, kind (given [name])

section Overlays

variable {β : Type} {read? : Data → Option β} {standard : β} {Suits Sound : Given → Prop}
  {overlay : Given → β} {data : Data} {name : String}

/-- A group that may be missing is laid over the standard one. -/
theorem Overlays.orElse_eq_some (h : Overlays read? standard Suits Sound overlay)
    (hdistinct : data.Distinct) (htable : IsTable (data.at? [name]))
    (hsuits : Suits fun key => data.at? (name :: key)) :
    Data.orElse read? standard (data.at? [name]) =
      some (overlay fun key => data.at? (name :: key)) := by
  rw [funext (data.at?_cons name)] at hsuits ⊢
  cases hat : data.at? [name] with
  | none => exact congrArg some h.overlay_none.symm
  | some value =>
    rw [hat] at htable hsuits
    exact h.read (hdistinct.at? hat) htable hsuits

/-- A group that is read, or is missing, has no fault below its name. -/
theorem Overlays.sound_of_orElse (h : Overlays read? standard Suits Sound overlay)
    (hdistinct : data.Distinct) {b : β}
    (hread : Data.orElse read? standard (data.at? [name]) = some b) :
    Sound fun key => data.at? (name :: key) := by
  rw [funext (data.at?_cons name)]
  cases hat : data.at? [name] with
  | none => exact h.sound_none
  | some value =>
    rw [hat] at hread
    exact h.sound (hdistinct.at? hat) hread

/-- A table whose fields are read one by one, and only if they are of a kind. -/
theorem overlays_of_iff {kind : Option Data → Prop} {names : List String} (hkind : kind none)
    (hnone : overlay (fun _ => none) = standard)
    (hread : ∀ {fields b}, (Data.record fields).Distinct → (read? (.record fields) = some b ↔
      Each kind names (Data.record fields).at? ∧ overlay (Data.record fields).at? = b)) :
    Overlays read? standard (Each kind names) (Each kind names) overlay where
  overlay_none := hnone
  sound_none := fun _ _ => hkind
  sound := by
    intro value b hdistinct h name hname
    -- Nothing but a record gives anything to a name, even if it is read.
    cases value with
    | record fields => exact ((hread hdistinct).mp h).1 name hname
    | _ => exact hkind
  read := by
    intro value hdistinct htable hsuits
    obtain ⟨fields, rfl⟩ := htable value rfl
    exact (hread hdistinct).mpr ⟨hsuits, rfl⟩

end Overlays

theorem isMeasure_none : IsMeasure none := fun _ h => absurd h (Option.not_mem_none _)

theorem isText_none : IsText none := fun _ h => absurd h (Option.not_mem_none _)

/-- The spacing is laid over the standard one, measure by measure. -/
theorem overlays_spacing : Overlays (spacing? true) (Spacing.standard : Spacing α)
    (Each IsMeasure spacingNames) (Each IsMeasure spacingNames) Spacing.overlay := by
  refine overlays_of_iff isMeasure_none rfl fun h => ?_
  rw [spacing?, Data.fields?_of_distinct h]
  simp [Option.bind_eq_some_iff, orElse_scalar?_eq_some_iff, Each, spacingNames, Spacing.overlay,
    and_assoc]

theorem overlays_button : Overlays (button? true) (ButtonStyle.standard : ButtonStyle α)
    (Each IsMeasure buttonNames) (Each IsMeasure buttonNames) ButtonStyle.overlay := by
  refine overlays_of_iff isMeasure_none rfl fun h => ?_
  rw [button?, Data.fields?_of_distinct h]
  simp [Option.bind_eq_some_iff, orElse_scalar?_eq_some_iff, Each, buttonNames,
    ButtonStyle.overlay, and_assoc]

theorem overlays_input : Overlays (input? true) (InputStyle.standard : InputStyle α)
    (Each IsMeasure inputNames) (Each IsMeasure inputNames) InputStyle.overlay := by
  refine overlays_of_iff isMeasure_none rfl fun h => ?_
  rw [input?, Data.fields?_of_distinct h]
  simp [Option.bind_eq_some_iff, orElse_scalar?_eq_some_iff, Each, inputNames, InputStyle.overlay,
    and_assoc]

theorem overlays_image : Overlays (image? true) (ImageStyle.standard : ImageStyle α)
    (Each IsMeasure imageNames) (Each IsMeasure imageNames) ImageStyle.overlay := by
  refine overlays_of_iff isMeasure_none rfl fun h => ?_
  rw [image?, Data.fields?_of_distinct h]
  simp [Option.bind_eq_some_iff, orElse_scalar?_eq_some_iff, Each, imageNames, ImageStyle.overlay,
    and_assoc]

/-- The colours are laid over the standard ones. -/
theorem overlays_colors : Overlays (colors? true) Colors.standard
    (Each IsText colorNames) (Each IsText colorNames) Colors.overlay := by
  refine overlays_of_iff isText_none rfl fun h => ?_
  rw [colors?, Data.fields?_of_distinct h]
  simp [Option.bind_eq_some_iff, orElse_text?_eq_some_iff, Each, colorNames, Colors.overlay,
    and_assoc]

/-! ### Fonts -/

/-- Whether a font may be given so. -/
structure SuitsFont (given : Given) : Prop where
  size : IsMeasure (given ["size"])
  weight : IsWeight (given ["weight"])
  whole : ∀ value ∈ given [], ¬ Lacks value

/-- What is certain of a font that is read. -/
structure SoundFont (given : Given) : Prop where
  size : IsMeasure (given ["size"])
  weight : ∀ value ∈ given ["weight"], weight? value ≠ none
  whole : ∀ value ∈ given [], ¬ Lacks value

theorem soundFont_none : SoundFont fun _ => none where
  size := isMeasure_none
  weight := fun _ h => absurd h (Option.not_mem_none _)
  whole := fun _ h => absurd h (Option.not_mem_none _)

theorem need_eq_some_iff {β : Type} {read? : Data → Option β} {given : Option Data} {b : β} :
    Data.need read? given = some b ↔ ∃ value, given = some value ∧ read? value = some b := by
  cases given <;> simp [Data.need]

theorem weight?_of_isWeight {value : Data} (h : IsWeight (some value)) (standard : FontWeight) :
    weight? value = some (weighting standard (some value)) := by
  rcases h value rfl with rfl | rfl <;> rfl

theorem isMeasure_of_scalar? {value : Data} {x : α} (h : scalar? value = some x) :
    IsMeasure (some value) :=
  have horElse : Data.orElse scalar? x (some value) = some x := h
  (orElse_scalar?_eq_some_iff.mp horElse).1

/-- A font that is read has a size and a weight without a fault. -/
theorem sound_font {value : Data} {font : Font α} (hdistinct : value.Distinct)
    (h : font? true value = some font) : SoundFont value.at? := by
  cases value with
  | record fields =>
    rw [font?, Data.fields?_of_distinct hdistinct] at h
    simp only [List.map_cons, List.map_nil, Option.bind_eq_bind,
      Option.bind_eq_some_iff, need_eq_some_iff] at h
    obtain ⟨size, ⟨sizeValue, hsize, hscalar⟩, weight, ⟨weightValue, hweight, hname⟩, -⟩ := h
    constructor
    · rw [hsize]
      exact isMeasure_of_scalar? hscalar
    · rw [hweight]
      rintro _ ⟨⟩
      rw [hname]
      exact Option.some_ne_none _
    · rintro _ ⟨⟩ ⟨hnone | hnone, -⟩
      · rw [hsize] at hnone
        cases hnone
      · rw [hweight] at hnone
        cases hnone
  | list items =>
    refine ⟨isMeasure_none, soundFont_none.weight, ?_⟩
    rintro _ ⟨⟩ ⟨-, hlength⟩
    have hlength := hlength items rfl
    -- A list gives the size first, so without a second item there is no weight.
    rcases items with _ | ⟨size, _ | ⟨weight, rest⟩⟩
    · cases h
    · simp [font?, Data.fields?, Data.inOrder, Data.need] at h
    · simp at hlength
  | _ => cases h

/-- A font that suits is read, with what it leaves open. -/
theorem read_font {value : Data} (standard : Font α) (hdistinct : value.Distinct)
    (htable : IsTable (some value)) (hsuits : SuitsFont value.at?) :
    font? true value = some (Font.overlay standard value.at?) := by
  obtain ⟨fields, rfl⟩ := htable value rfl
  obtain ⟨hmeasure, hisWeight, hwhole⟩ := hsuits
  -- Only a list could do without the names, and the font is a table.
  have hboth := hwhole _ rfl
  rw [Lacks, not_and'] at hboth
  have hboth := hboth fun _ heq => Data.noConfusion heq
  rw [not_or] at hboth
  obtain ⟨size, hsize⟩ := Option.ne_none_iff_exists'.mp hboth.1
  obtain ⟨weight, hweight⟩ := Option.ne_none_iff_exists'.mp hboth.2
  rw [hsize] at hmeasure
  rw [hweight] at hisWeight
  have hscalar : scalar? size = some (measure standard.size (some size)) :=
    orElse_scalar?_eq_some_iff.mpr ⟨hmeasure, rfl⟩
  rw [font?, Data.fields?_of_distinct hdistinct]
  simp only [List.map_cons, List.map_nil, hsize, hweight, Data.need, hscalar,
    weight?_of_isWeight hisWeight standard.weight, Font.overlay]
  rfl

/-- A font is read in place of any standard one. -/
theorem overlays_font (standard : Font α) :
    Overlays (font? true) standard SuitsFont SoundFont (Font.overlay standard) where
  overlay_none := rfl
  sound_none := soundFont_none
  sound := sound_font
  read := read_font standard

/-- Whether fonts may be given so. -/
structure SuitsFonts (given : Given) : Prop where
  tables : ∀ name ∈ fontNames, IsTable (given [name])
  fonts : ∀ name ∈ fontNames, SuitsFont fun key => given (name :: key)
  family : IsText (given ["family"])

/-- What is certain of fonts that are read. -/
structure SoundFonts (given : Given) : Prop where
  fonts : ∀ name ∈ fontNames, SoundFont fun key => given (name :: key)
  family : IsText (given ["family"])

theorem soundFonts_none : SoundFonts fun _ => none where
  fonts := fun _ _ => soundFont_none
  family := isText_none

/-- Fonts that are read are sound one by one. -/
theorem sound_fonts {value : Data} {fonts : Fonts α} (hdistinct : value.Distinct)
    (h : fonts? true value = some fonts) : SoundFonts value.at? := by
  cases value with
  | record fields =>
    rw [fonts?, Data.fields?_of_distinct hdistinct] at h
    simp only [List.map_cons, List.map_nil, Option.bind_eq_bind,
      Option.bind_eq_some_iff] at h
    obtain ⟨_, h1, _, h2, _, h3, _, h4, _, h5, _, h6, _, hbody, _, hlabel, _, hfamily, -⟩ := h
    refine ⟨?_, (orElse_text?_eq_some_iff.mp hfamily).1⟩
    simp only [fontNames, List.forall_mem_cons, List.not_mem_nil, false_imp_iff, implies_true,
      and_true]
    exact ⟨(overlays_font _).sound_of_orElse hdistinct h1,
      (overlays_font _).sound_of_orElse hdistinct h2,
      (overlays_font _).sound_of_orElse hdistinct h3,
      (overlays_font _).sound_of_orElse hdistinct h4,
      (overlays_font _).sound_of_orElse hdistinct h5,
      (overlays_font _).sound_of_orElse hdistinct h6,
      (overlays_font _).sound_of_orElse hdistinct hbody,
      (overlays_font _).sound_of_orElse hdistinct hlabel⟩
  | _ => exact ⟨soundFonts_none.fonts, soundFonts_none.family⟩

/-- The fonts are laid over the standard ones, font by font. -/
theorem overlays_fonts :
    Overlays (fonts? true) (Fonts.standard : Fonts α) SuitsFonts SoundFonts Fonts.overlay where
  overlay_none := rfl
  sound_none := soundFonts_none
  sound := sound_fonts
  read := by
    intro value hdistinct htable hsuits
    obtain ⟨fields, rfl⟩ := htable value rfl
    have hfont : ∀ name ∈ fontNames, ∀ standard : Font α,
        Data.orElse (font? true) standard ((Data.record fields).at? [name]) =
          some (standard.overlay fun key => (Data.record fields).at? (name :: key)) :=
      fun name hname standard => (overlays_font standard).orElse_eq_some hdistinct
        (hsuits.tables name hname) (hsuits.fonts name hname)
    have hfamily := orElse_text?_eq_some_iff.mpr
      ⟨hsuits.family, rfl (a := wording (Fonts.standard : Fonts α).family _)⟩
    simp only [fontNames, List.forall_mem_cons, List.not_mem_nil, false_imp_iff, implies_true,
      and_true] at hfont
    rw [fonts?, Data.fields?_of_distinct hdistinct]
    simp only [List.map_cons, List.map_nil]
    simp [hfont, hfamily, Fonts.overlay]

/-! ### Themes -/

/-- Whether every known key that is given anything is given what it asks for, in what is read. -/
structure Sound (data : Data) : Prop where
  measures : ∀ key ∈ measureKeys, IsMeasure (data.at? key)
  texts : ∀ key ∈ textKeys, IsText (data.at? key)
  weights : ∀ key ∈ weightKeys, ∀ value ∈ data.at? key, weight? value ≠ none
  fonts : ∀ name ∈ fontNames, ∀ value ∈ data.at? ["fonts", name], ¬ Lacks value

/-- Data that fit are read as the standard theme with the given parts. -/
theorem ofData?_of_fits {fields : List (String × Data)} (hdistinct : (Data.record fields).Distinct)
    (h : Fits (.record fields)) :
    (ofData? true (.record fields) : Option (Theme α)) =
      some (overlay (Data.record fields).at?) := by
  obtain ⟨htables, hmeasures, htexts, hweights, hwhole⟩ := h
  -- Each table has the keys inside it.
  simp only [tableKeys, measureKeys, textKeys, weightKeys, List.forall_mem_append,
    List.forall_mem_cons, List.forall_mem_map, List.not_mem_nil, false_imp_iff, implies_true,
    and_true] at htables hmeasures htexts hweights
  obtain ⟨⟨hfonts, hcolors, hspacing, hbutton, hinput, himage⟩, heach⟩ := htables
  obtain ⟨⟨⟨⟨⟨⟨hwidth, hpadding⟩, hsizes⟩, hspacings⟩, hbuttons⟩, hinputs⟩, himages⟩ := hmeasures
  have hfont := (overlays_fonts (α := α)).orElse_eq_some hdistinct hfonts
    ⟨heach, fun name hname => ⟨hsizes name hname, hweights name hname, hwhole name hname⟩,
      htexts.1⟩
  have hcolor := overlays_colors.orElse_eq_some hdistinct hcolors htexts.2
  have hdistance := (overlays_spacing (α := α)).orElse_eq_some hdistinct hspacing hspacings
  have hbutton := (overlays_button (α := α)).orElse_eq_some hdistinct hbutton hbuttons
  have hinput := (overlays_input (α := α)).orElse_eq_some hdistinct hinput hinputs
  have himage := (overlays_image (α := α)).orElse_eq_some hdistinct himage himages
  have hmeasure {key : List String} (hkey : IsMeasure ((Data.record fields).at? key))
      (standard : α) := orElse_scalar?_eq_some_iff.mpr ⟨hkey, rfl (a := measure standard _)⟩
  rw [ofData?, Data.fields?_of_distinct hdistinct]
  simp only [List.map_cons, List.map_nil]
  simp [hmeasure hwidth, hmeasure hpadding, hfont, hcolor, hdistance, hbutton, hinput, himage,
    overlay]

/-- Whatever is read as a theme gives to the known keys what they ask for. -/
theorem sound_of_ofData? {fields : List (String × Data)} {theme : Theme α}
    (hdistinct : (Data.record fields).Distinct)
    (h : ofData? true (.record fields) = some theme) : Sound (.record fields) := by
  rw [ofData?, Data.fields?_of_distinct hdistinct] at h
  simp only [List.map_cons, List.map_nil, Option.bind_eq_bind,
    Option.bind_eq_some_iff] at h
  obtain ⟨_, hwidth, _, hpadding, _, hfonts, _, hcolors, _, hspacing, _, hbutton, _, hinput, _,
    himage, -⟩ := h
  -- group by group, what was read had no fault below its key
  have hfonts := overlays_fonts.sound_of_orElse hdistinct hfonts
  have hwidth := (orElse_scalar?_eq_some_iff.mp hwidth).1
  have hpadding := (orElse_scalar?_eq_some_iff.mp hpadding).1
  have hcolors := overlays_colors.sound_of_orElse hdistinct hcolors
  have hspacing := overlays_spacing.sound_of_orElse hdistinct hspacing
  have hbutton := overlays_button.sound_of_orElse hdistinct hbutton
  have hinput := overlays_input.sound_of_orElse hdistinct hinput
  have himage := overlays_image.sound_of_orElse hdistinct himage
  constructor
  case measures =>
    simp only [measureKeys, List.forall_mem_append, List.forall_mem_cons, List.forall_mem_map,
      List.not_mem_nil, false_imp_iff, implies_true, and_true]
    exact ⟨⟨⟨⟨⟨⟨hwidth, hpadding⟩, fun name hname => (hfonts.fonts name hname).size⟩, hspacing⟩,
      hbutton⟩, hinput⟩, himage⟩
  case texts => exact List.forall_mem_cons.mpr ⟨hfonts.family, List.forall_mem_map.mpr hcolors⟩
  case weights => exact List.forall_mem_map.mpr fun name hname => (hfonts.fonts name hname).weight
  case fonts => exact fun name hname => (hfonts.fonts name hname).whole

/-- Data in conflict with what known keys ask for are not read. -/
theorem Conflicts.not_sound {data : Data} (h : Conflicts data) : ¬ Sound data := by
  intro hsound
  cases h with
  | measure key hkey value hgiven hvalue =>
    obtain ⟨numeral, rfl⟩ := hsound.measures key hkey value hgiven
    rcases hvalue with ⟨_, heq⟩ | ⟨_, heq⟩ <;> cases heq
  | text key hkey value hgiven hvalue =>
    rcases List.mem_append.mp hkey with htext | hweight
    · obtain ⟨text, rfl⟩ := hsound.texts key htext value hgiven
      rcases hvalue with ⟨_, heq⟩ | ⟨_, heq⟩ <;> cases heq
    · have hread := hsound.weights key hweight value hgiven
      rcases hvalue with ⟨_, rfl⟩ | ⟨_, rfl⟩ <;> exact hread rfl
  | weight key hkey text hgiven hnormal hbold =>
    refine hsound.weights key hkey (.text text) hgiven ?_
    simp [weight?, FontWeight.ofName?, FontWeight.all, FontWeight.name, hnormal.symm, hbold.symm]
  | font name hname value hgiven hlacks => exact hsound.fonts name hname value hgiven hlacks

/-! ### Theme files -/

open Toml (AllWritable Inline IsBare)

variable {fs : FileSystem} {path : Path}

/-- **A theme that is given in part** is the standard one but for what is given. A file that gives
a known key what it cannot be given, or half a font, is refused. -/
theorem load_overlay {text : String} {data : Data} (hfile : fs.readBytes path = .ok text.toUTF8)
    (hdata : Toml.read? text = some data) :
    (Fits data → load (m := StateM FileSystem) path fs =
      (.ok (overlay data.at? : Theme Float), fs)) ∧
    (Conflicts data → load (m := StateM FileSystem) path fs =
      ((.error .malformed : Except ThemeError (Theme Float)), fs)) := by
  obtain ⟨hdistinct, fields, rfl⟩ := Toml.distinct_of_read? hdata
  rw [load_of_readBytes hfile, ofText, ofToml?, hdata, Option.bind_some]
  refine ⟨fun hfits => ?_, fun hconflicts => ?_⟩
  · rw [ofData?_of_fits hdistinct hfits]
  · cases htheme : (ofData? true (.record fields) : Option (Theme Float)) with
    | none => rfl
    | some theme => exact absurd (sound_of_ofData? hdistinct htheme) hconflicts.not_sound

/-- A tree with a theme file of this text. -/
def themed (text : String) : FileSystem :=
  ((FileSystem.empty []).writeBytes ⟨"theme.toml"⟩ text.toUTF8).2

theorem readBytes_themed (text : String) :
    (themed text).readBytes ⟨"theme.toml"⟩ = .ok text.toUTF8 :=
  FileSystem.readBytes_writeBytes (Prod.ext (writeBytes_theme_toml _) rfl)

/-- Some parts of a theme, and a field that no theme has. -/
def parts : List (String × Data) :=
  [("season", .text "spring"), ("padding", .number (.ofInt 20)),
    ("fonts", .record [("h1", .record [("weight", .text "normal"),
      ("size", .number (.decimal false 205 (-1)))])])]

/-- The same as a text. -/
def partsText : String := "season = \"spring\"
padding = 20.0

[fonts]

[fonts.h1]
weight = \"normal\"
size = 20.5
"

/-- The text that sets parts of a theme is read to these parts. -/
theorem read?_partsText : Toml.read? partsText = some (.record parts) := by
  have hbare : ∀ name ∈ ["season", "padding", "fonts", "h1", "weight", "size"], IsBare name := by
    decide
  have htwenty : Inline (.number (.ofInt 20)) :=
    .number (.inl (by decide)) nofun (by decide +kernel)
  have htwentyHalf : Inline (.number (.decimal false 205 (-1))) :=
    .number (.inl (by decide)) nofun (by decide +kernel)
  simp only [List.forall_mem_cons, List.not_mem_nil, false_imp_iff, implies_true, and_true] at hbare
  have hwritable : AllWritable parts := by
    simp [parts, Toml.Writable, AllWritable, hbare, htwenty, htwentyHalf, Inline.text]
  have htext : Toml.write parts = partsText := by decide +kernel
  rw [← htext, Toml.read?_write (by decide) hwritable]
  rfl

/-- Those parts fit. -/
theorem fits_parts : Fits (.record parts) := by
  constructor
  · simp [tableKeys, IsTable, fontNames, Data.at?, parts, List.lookup]
  · simp [measureKeys, IsMeasure, fontNames, spacingNames, buttonNames, inputNames, imageNames,
      Data.at?, parts, List.lookup]
  · simp [textKeys, IsText, colorNames, Data.at?, parts, List.lookup]
  · simp [weightKeys, IsWeight, fontNames, Data.at?, parts, List.lookup]
  · simp [fontNames, Lacks, Data.at?, parts, List.lookup]

theorem read?_wide : Toml.read? "padding = \"wide\"\n" =
    some (.record [("padding", .text "wide")]) := by cbv

/-- A file that sets a few keys changes these and leaves the standard elsewhere. -/
theorem load_overlay_partsText :
    load (m := StateM FileSystem) ⟨"theme.toml"⟩ (themed partsText) =
      (.ok
        { (standard : Theme Float) with
          padding := Numeral.toDouble (.ofInt 20)
          fonts :=
            { Fonts.standard with h1 := ⟨Numeral.toDouble (.decimal false 205 (-1)), .normal⟩ } },
        themed partsText) ∧
    load (m := StateM FileSystem) ⟨"theme.toml"⟩ (themed "padding = \"wide\"\n") =
      ((.error .malformed : Except ThemeError (Theme Float)), themed "padding = \"wide\"\n") :=
  ⟨(load_overlay (readBytes_themed _) read?_partsText).1 fits_parts,
    (load_overlay (readBytes_themed _) read?_wide).2
      (.measure ["padding"] (by decide) (.text "wide") rfl (.inl ⟨"wide", rfl⟩))⟩

end Theme

end Wireframe
