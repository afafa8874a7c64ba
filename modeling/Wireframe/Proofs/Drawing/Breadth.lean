import Mathlib.Tactic.Linarith
import Mathlib.Tactic.NormNum
import Mathlib.Tactic.Ring
import Wireframe.Document.Reading
import Wireframe.Proofs.Drawing.Regions

/-!
# How broad drawings are

Everything but a button is drawn between the borders of the page, whatever is written in it. A
button is as wide as its label asks for, and nothing bounds that: a label that is too long takes its
button over the edge of the landmark that it is in, and over the edge of the canvas. In the standard
theme this happens from 107 and from 110 characters on, and it is all that can happen
(`Layout.staysInside_ofText_iff`).
-/

namespace Wireframe

open Set (Icc uIcc)

/-! ### Labels of buttons -/

mutual

/-- The labels of the buttons in an element, at whatever depth. -/
def Element.buttonLabels : Element → List String
  | .button label => [label]
  | .landmark _ children => Element.buttonLabelsAll children
  | _ => []

/-- The labels of the buttons in elements, at whatever depth. -/
def Element.buttonLabelsAll : List Element → List String
  | [] => []
  | element :: rest => element.buttonLabels ++ Element.buttonLabelsAll rest

end

/-! ### Columns -/

namespace Shape

/-- The columns of the canvas that a rectangle takes up. -/
def rectColumns : Shape ℚ → Set ℚ
  | rect shape => uIcc shape.x (shape.x + shape.width)
  | _ => ∅

/-- The columns of the canvas that a line takes up. -/
def lineColumns : Shape ℚ → Set ℚ
  | line x1 _ x2 _ _ => uIcc x1 x2
  | _ => ∅

variable {columns : Shape ℚ → Set ℚ} {bounds : Set ℚ} {left right : ℚ}

/-- Whether all parts of a shape of some kind are in some columns of the canvas. -/
def Within (columns : Shape ℚ → Set ℚ) (bounds : Set ℚ) (shape : Shape ℚ) : Prop :=
  ∀ part ∈ shape.parts, columns part ⊆ bounds

theorem within_part_iff {part : Shape ℚ} (h : part.parts = [part]) :
    part.Within columns bounds ↔ columns part ⊆ bounds := by
  rw [Within, h, List.forall_mem_singleton]

/-- A group lies within bounds if each of its shapes does. -/
theorem within_group_iff {className : String} {shapes : List (Shape ℚ)} :
    (group className shapes).Within columns bounds ↔
      ∀ shape ∈ shapes, shape.Within columns bounds := by
  simp only [Within, parts, mem_partsAll]
  constructor
  · intro h shape hshape part hpart
    exact h part ⟨shape, hshape, hpart⟩
  · rintro h part ⟨shape, hshape, hpart⟩
    exact h shape hshape part hpart

/-- What is no part of the kind in question may be anywhere. -/
theorem within_of_empty {part : Shape ℚ} (h : part.parts = [part]) (hcolumns : columns part = ∅) :
    part.Within columns bounds := by
  rw [within_part_iff h, hcolumns]
  exact Set.empty_subset bounds

/-- What lies between two points lies within bounds if both points do. -/
theorem uIcc_subset_iff {a b : ℚ} :
    uIcc a b ⊆ Icc left right ↔ a ∈ Icc left right ∧ b ∈ Icc left right := by
  constructor
  · intro h
    exact ⟨h Set.left_mem_uIcc, h Set.right_mem_uIcc⟩
  · rintro ⟨ha, hb⟩
    exact Set.uIcc_subset_Icc ha hb

theorem within_rect_iff {frame : RectShape ℚ} :
    (rect frame).Within rectColumns (Icc left right) ↔
      frame.x ∈ Icc left right ∧ frame.x + frame.width ∈ Icc left right :=
  (within_part_iff rfl).trans uIcc_subset_iff

theorem within_line_iff {x1 y1 x2 y2 : ℚ} {stroke : String} :
    (line x1 y1 x2 y2 stroke).Within lineColumns (Icc left right) ↔
      x1 ∈ Icc left right ∧ x2 ∈ Icc left right :=
  (within_part_iff rfl).trans uIcc_subset_iff

/-- Whether the background of a landmark covers the columns of the rectangles that are drawn for its
children. -/
def CoversColumns (background : RectShape ℚ) (_label : Shape ℚ) (shapes : List (Shape ℚ)) : Prop :=
  ∀ shape ∈ shapes, shape.Within rectColumns (Icc background.x (background.x + background.width))

end Shape

/-- Whether everything in a theme but the buttons has its place between the borders. -/
structure Theme.Bordered (theme : Theme ℚ) : Prop where
  padding : 0 ≤ theme.padding
  pageWidth : theme.padding * 2 ≤ theme.pageWidth
  minWidth : 0 ≤ theme.button.minWidth
  defaultWidth : theme.image.defaultWidth ∈ Icc 0 1

theorem Theme.contentWidth_eq (theme : Theme ℚ) :
    theme.contentWidth = theme.pageWidth - theme.padding * 2 := by
  rw [contentWidth]
  norm_num

namespace Layout

open Shape

variable {theme : Theme ℚ} {left right : ℚ}

/-! ### Single elements -/

section Bordered

variable (h : theme.Bordered)

include h

theorem buttonWidth_nonneg (characters : ℕ) : 0 ≤ buttonWidth theme characters := by
  rw [buttonWidth, Scalar.larger_eq_max]
  exact h.minWidth.trans (le_max_right _ _)

/-- A button stays within bounds exactly if its label is not too long: it is as wide as that needs.
-/
theorem rects_drawButton_iff (hleft : left ≤ theme.padding) (cursor : ℚ) (label : String) :
    (drawButton theme cursor label).1.Within rectColumns (Icc left right) ↔
      theme.padding + buttonWidth theme label.length ≤ right := by
  have hwidth := buttonWidth_nonneg h label.length
  rw [drawButton, within_group_iff, List.forall_mem_cons, List.forall_mem_singleton,
    and_iff_left (within_of_empty rfl rfl), within_rect_iff, Set.mem_Icc, Set.mem_Icc]
  constructor
  · intro hinside
    exact hinside.2.2
  · intro hright
    exact ⟨⟨hleft, by linarith⟩, by linarith, hright⟩

/-- An input is as wide as the content, and no wider. -/
theorem rects_drawInput (hleft : left ≤ theme.padding)
    (hright : theme.pageWidth - theme.padding ≤ right) (cursor : ℚ) (content : String) :
    (drawInput theme cursor content).1.Within rectColumns (Icc left right) := by
  have hpage := h.pageWidth
  rw [drawInput, within_group_iff, List.forall_mem_cons, List.forall_mem_singleton,
    and_iff_right (within_of_empty rfl rfl), within_rect_iff, Set.mem_Icc, Set.mem_Icc,
    theme.contentWidth_eq]
  exact ⟨⟨hleft, by linarith⟩, by linarith, by linarith⟩

/-- The frame of an image stands in the middle between the borders. -/
theorem image_mem_Icc (hleft : left ≤ theme.padding)
    (hright : theme.pageWidth - theme.padding ≤ right) :
    let width := theme.contentWidth * theme.image.defaultWidth
    let x := theme.padding + (theme.contentWidth - width) / 2.0
    x ∈ Icc left right ∧ x + width ∈ Icc left right := by
  intro width x
  have hpage := h.pageWidth
  have hcontent := theme.contentWidth_eq
  have hcontent_nonneg : 0 ≤ theme.contentWidth := by linarith
  have hwidth_nonneg : 0 ≤ width := mul_nonneg hcontent_nonneg h.defaultWidth.1
  have hwidth_le : width ≤ theme.contentWidth :=
    mul_le_of_le_one_right hcontent_nonneg h.defaultWidth.2
  have hx : x = theme.padding + (theme.contentWidth - width) / 2 := by
    simp only [x]
    norm_num
  rw [hx, Set.mem_Icc, Set.mem_Icc]
  exact ⟨⟨by linarith, by linarith⟩, by linarith, by linarith⟩

/-- An image is not wider than the content. -/
theorem rects_drawImage (hleft : left ≤ theme.padding)
    (hright : theme.pageWidth - theme.padding ≤ right) (cursor : ℚ) (content : String) :
    (drawImage theme cursor content).1.Within rectColumns (Icc left right) := by
  rw [drawImage, within_group_iff, List.forall_mem_cons, within_rect_iff]
  refine ⟨image_mem_Icc h hleft hright, fun part hpart => ?_⟩
  simp only [List.mem_cons, List.not_mem_nil, or_false] at hpart
  rcases hpart with rfl | rfl | rfl <;> exact within_of_empty rfl rfl

/-- The diagonals of an image stay within its frame. -/
theorem lines_drawImage (hleft : left ≤ theme.padding)
    (hright : theme.pageWidth - theme.padding ≤ right) (cursor : ℚ) (content : String) :
    (drawImage theme cursor content).1.Within lineColumns (Icc left right) := by
  obtain ⟨hx, hend⟩ := image_mem_Icc h hleft hright
  rw [drawImage, within_group_iff]
  refine List.forall_mem_cons.mpr ⟨within_of_empty rfl rfl, List.forall_mem_cons.mpr
    ⟨within_line_iff.mpr ⟨hx, hend⟩, List.forall_mem_cons.mpr
      ⟨within_line_iff.mpr ⟨hend, hx⟩, List.forall_mem_singleton.mpr ?_⟩⟩⟩
  exact within_of_empty rfl rfl

/-- A divider is as wide as the content. -/
theorem lines_drawDivider (hleft : left ≤ theme.padding)
    (hright : theme.pageWidth - theme.padding ≤ right) (cursor : ℚ) :
    (drawDivider theme cursor).1.Within lineColumns (Icc left right) := by
  have hpage := h.pageWidth
  rw [drawDivider, within_line_iff, Set.mem_Icc, Set.mem_Icc, theme.contentWidth_eq]
  exact ⟨⟨hleft, by linarith⟩, by linarith, by linarith⟩

/-- A background reaches half the padding beyond the content. -/
theorem rects_landmarkBackground (hleft : left ≤ theme.padding / 2)
    (hright : theme.pageWidth - theme.padding / 2 ≤ right) (top bottom : ℚ) :
    (rect (landmarkBackground theme top bottom)).Within rectColumns (Icc left right) := by
  have hpadding := h.padding
  have hpage := h.pageWidth
  rw [within_rect_iff, landmarkBackground, Set.mem_Icc, Set.mem_Icc]
  exact ⟨⟨by linarith, by linarith⟩, by linarith, by linarith⟩

end Bordered

/-! ### All elements -/

mutual

/-- Between columns that leave room for the background of a landmark, the rectangles of an element
keep to them if and only if its buttons do. -/
theorem rects_drawElement_iff (h : theme.Bordered) (hleft : left ≤ theme.padding / 2)
    (hright : theme.pageWidth - theme.padding / 2 ≤ right) (cursor : ℚ) (element : Element) :
    (drawElement theme cursor element).1.Within rectColumns (Icc left right) ↔
      ∀ label ∈ element.buttonLabels, theme.padding + buttonWidth theme label.length ≤ right := by
  have hpadding := h.padding
  have hinner : left ≤ theme.padding := by linarith
  have hborder : theme.pageWidth - theme.padding ≤ right := by linarith
  match element with
  | .heading .. | .link .. | .skipLink _ | .text _ | .divider =>
    exact iff_of_true (within_of_empty rfl rfl) nofun
  | .listItem _ =>
    refine iff_of_true (within_group_iff.mpr (List.forall_mem_cons.mpr ⟨?_, ?_⟩)) nofun
    · exact within_of_empty rfl rfl
    · exact List.forall_mem_singleton.mpr (within_of_empty rfl rfl)
  | .input content => exact iff_of_true (rects_drawInput h hinner hborder cursor content) nofun
  | .image content => exact iff_of_true (rects_drawImage h hinner hborder cursor content) nofun
  | .button label =>
    rw [Element.buttonLabels, List.forall_mem_singleton]
    exact rects_drawButton_iff h hinner cursor label
  | .landmark name children =>
    rw [Element.buttonLabels, ← rects_drawElements_iff h hleft hright
      (drawLandmarkLabel theme cursor name).2 children]
    refine within_group_iff.trans (List.forall_mem_cons.trans ?_)
    rw [and_iff_right (rects_landmarkBackground h hleft hright cursor _), List.forall_mem_cons]
    exact and_iff_right (within_of_empty rfl rfl)

/-- Elements stay within bounds exactly if the labels of their buttons, at any depth, are not too
long. -/
theorem rects_drawElements_iff (h : theme.Bordered) (hleft : left ≤ theme.padding / 2)
    (hright : theme.pageWidth - theme.padding / 2 ≤ right) (cursor : ℚ)
    (elements : List Element) :
    (∀ shape ∈ (drawElements theme cursor elements).1,
        shape.Within rectColumns (Icc left right)) ↔
      ∀ label ∈ Element.buttonLabelsAll elements,
        theme.padding + buttonWidth theme label.length ≤ right := by
  match elements with
  | [] => exact iff_of_true nofun nofun
  | element :: rest =>
    rw [drawElements, List.forall_mem_cons, Element.buttonLabelsAll, List.forall_mem_append,
      rects_drawElement_iff h hleft hright cursor element,
      rects_drawElements_iff h hleft hright _ rest]

end

mutual

/-- Lines are between the borders. -/
theorem lines_drawElement (h : theme.Bordered) (hleft : left ≤ theme.padding)
    (hright : theme.pageWidth - theme.padding ≤ right) (cursor : ℚ) (element : Element) :
    (drawElement theme cursor element).1.Within lineColumns (Icc left right) := by
  match element with
  | .heading .. | .link .. | .skipLink _ | .text _ => exact within_of_empty rfl rfl
  | .listItem _ | .input _ | .button _ =>
    refine within_group_iff.mpr (List.forall_mem_cons.mpr ⟨?_, ?_⟩)
    · exact within_of_empty rfl rfl
    · exact List.forall_mem_singleton.mpr (within_of_empty rfl rfl)
  | .image content => exact lines_drawImage h hleft hright cursor content
  | .divider => exact lines_drawDivider h hleft hright cursor
  | .landmark name children =>
    refine within_group_iff.mpr (List.forall_mem_cons.mpr ⟨within_of_empty rfl rfl, ?_⟩)
    refine List.forall_mem_cons.mpr ⟨within_of_empty rfl rfl, ?_⟩
    exact lines_drawElements h hleft hright _ children

/-- Lines stay within the content, whatever the labels are. -/
theorem lines_drawElements (h : theme.Bordered) (hleft : left ≤ theme.padding)
    (hright : theme.pageWidth - theme.padding ≤ right) (cursor : ℚ) (elements : List Element) :
    ∀ shape ∈ (drawElements theme cursor elements).1,
      shape.Within lineColumns (Icc left right) := by
  match elements with
  | [] => exact nofun
  | element :: rest =>
    exact List.forall_mem_cons.mpr ⟨lines_drawElement h hleft hright cursor element,
      lines_drawElements h hleft hright _ rest⟩

end

/-! ### Whole pages -/

/-- Whether a page stays inside its landmarks and inside its canvas: the background of each landmark
covers the columns of the rectangles that are drawn for the children, and all rectangles and lines
of the page are in the columns of the canvas. -/
structure StaysInside (theme : Theme ℚ) (document : Document) : Prop where
  landmarks : ∃ shapes, (ofDocument theme document).shapes =
      titleShapes theme document.metadata.title? ++ shapes ∧
    List.Forall₂ (Element.Obeys CoversColumns) document.elements shapes
  rects : ∀ shape ∈ (ofDocument theme document).shapes,
    shape.Within rectColumns (Icc 0 theme.pageWidth)
  lines : ∀ shape ∈ (ofDocument theme document).shapes,
    shape.Within lineColumns (Icc 0 theme.pageWidth)

/-- The title has neither frames nor lines. -/
theorem within_titleShapes {columns : Shape ℚ → Set ℚ} {bounds : Set ℚ}
    (hcolumns : ∀ shape, columns (.text shape) = ∅) (title? : Option String) :
    ∀ shape ∈ titleShapes theme title?, shape.Within columns bounds := by
  cases title? with
  | none => exact nofun
  | some title => exact List.forall_mem_singleton.mpr (within_of_empty rfl (hcolumns _))

/-- Where the background of a landmark ends at the sides. -/
theorem coversColumns_landmarkBackground_iff (h : theme.Bordered) (cursor : ℚ) (name : String)
    (children : List Element) :
    CoversColumns
        (landmarkBackground theme cursor
          (drawElements theme (drawLandmarkLabel theme cursor name).2 children).2)
        (drawLandmarkLabel theme cursor name).1
        (drawElements theme (drawLandmarkLabel theme cursor name).2 children).1 ↔
      ∀ label ∈ Element.buttonLabelsAll children,
        theme.padding + buttonWidth theme label.length ≤ theme.pageWidth - theme.padding / 2 := by
  have hends : theme.padding / 2.0 = theme.padding / 2 ∧
      theme.padding / 2.0 + (theme.pageWidth - theme.padding) =
        theme.pageWidth - theme.padding / 2 := by
    norm_num
    ring
  rw [CoversColumns, landmarkBackground, hends.1, ← hends.2, hends.1]
  exact rects_drawElements_iff h le_rfl (by linarith) _ children

/-- A page stays inside if and only if its buttons do. -/
theorem staysInside_iff (h : theme.Bordered) (document : Document) :
    StaysInside theme document ↔
      (∀ label ∈ Element.buttonLabelsAll document.elements,
        theme.padding + buttonWidth theme label.length ≤ theme.pageWidth) ∧
      ∀ children ∈ Element.familiesAll document.elements,
        ∀ label ∈ Element.buttonLabelsAll children,
          theme.padding + buttonWidth theme label.length ≤ theme.pageWidth - theme.padding / 2 := by
  have hpadding := h.padding
  have hshapes := shapes_ofDocument theme document
  have hrects : (∀ shape ∈ (drawElements theme (afterTitle theme document.metadata.title?).cursor
        document.elements).1, shape.Within rectColumns (Icc 0 theme.pageWidth)) ↔
      ∀ label ∈ Element.buttonLabelsAll document.elements,
        theme.padding + buttonWidth theme label.length ≤ theme.pageWidth :=
    rects_drawElements_iff h (by linarith) (by linarith) _ document.elements
  have hlandmarks := obeys_drawElements_iff (coversColumns_landmarkBackground_iff h)
    (afterTitle theme document.metadata.title?).cursor document.elements
  -- both conditions on labels are now conditions on shapes, one for the canvas and one for
  -- backgrounds
  rw [← hrects, ← hlandmarks]
  constructor
  · rintro ⟨⟨shapes, hsplit, hobeys⟩, hinside, -⟩
    rw [hshapes] at hinside hsplit
    obtain rfl := List.append_cancel_left hsplit
    exact ⟨(List.forall_mem_append.mp hinside).2, hobeys⟩
  · rintro ⟨hinside, hobeys⟩
    refine ⟨⟨_, hshapes, hobeys⟩, ?_, ?_⟩
    · rw [hshapes]
      exact List.forall_mem_append.mpr ⟨within_titleShapes (fun _ => rfl) _, hinside⟩
    · rw [hshapes]
      refine List.forall_mem_append.mpr ⟨within_titleShapes (fun _ => rfl) _, ?_⟩
      exact lines_drawElements h hpadding (by linarith) _ document.elements

/-! ### The standard theme -/

theorem bordered_standard : (Theme.standard : Theme ℚ).Bordered := by
  constructor <;> norm_num [Theme.standard, ButtonStyle.standard, ImageStyle.standard]

/-- Where a button with a label of so many characters ends. -/
theorem standard_button_le_iff {characters limit : ℕ} (h : 160 ≤ limit) :
    (Theme.standard : Theme ℚ).padding + buttonWidth (.standard : Theme ℚ) characters ≤ limit ↔
      characters * 8 + 88 ≤ limit := by
  have hwidth : buttonWidth (.standard : Theme ℚ) characters =
      max ((characters : ℚ) * 8 + 48) 120 := by
    rw [buttonWidth, Scalar.ofNat_eq_cast, Scalar.larger_eq_max]
    norm_num [Theme.standard, ButtonStyle.standard]
  have hpadding : (Theme.standard : Theme ℚ).padding = 40 := by norm_num [Theme.standard]
  have hlimit : (160 : ℚ) ≤ limit := by exact_mod_cast h
  rw [hwidth, hpadding, ← le_sub_iff_add_le', max_le_iff,
    and_iff_left (by linarith : (120 : ℚ) ≤ limit - 40), le_sub_iff_add_le]
  constructor
  · intro hle
    have hnat : ((characters * 8 + 88 : ℕ) : ℚ) ≤ limit := by
      push_cast
      linarith
    exact_mod_cast hnat
  · intro hle
    have hcast : ((characters * 8 + 88 : ℕ) : ℚ) ≤ limit := by exact_mod_cast hle
    push_cast at hcast
    linarith

/-- **How long labels may be.** In the standard theme, the page of a text stays inside its landmarks
and inside its canvas if and only if its buttons have labels of at most 109 characters, and those in
landmarks of at most 106. -/
theorem staysInside_ofText_iff (text : String) :
    StaysInside .standard (.ofText text) ↔
      (∀ label ∈ Element.buttonLabelsAll (Document.ofText text).elements, label.length ≤ 109) ∧
      ∀ children ∈ Element.familiesAll (Document.ofText text).elements,
        ∀ label ∈ Element.buttonLabelsAll children, label.length ≤ 106 := by
  have hcanvas (label : String) : (Theme.standard : Theme ℚ).padding +
      buttonWidth (.standard : Theme ℚ) label.length ≤ (Theme.standard : Theme ℚ).pageWidth ↔
        label.length ≤ 109 := by
    have hwidth : (Theme.standard : Theme ℚ).pageWidth = (960 : ℕ) := by norm_num [Theme.standard]
    rw [hwidth, standard_button_le_iff (by decide)]
    omega
  have hlandmark (label : String) : (Theme.standard : Theme ℚ).padding +
      buttonWidth (.standard : Theme ℚ) label.length ≤
        (Theme.standard : Theme ℚ).pageWidth - (Theme.standard : Theme ℚ).padding / 2 ↔
        label.length ≤ 106 := by
    have hwidth : (Theme.standard : Theme ℚ).pageWidth - (Theme.standard : Theme ℚ).padding / 2 =
        (940 : ℕ) := by norm_num [Theme.standard]
    rw [hwidth, standard_button_le_iff (by decide)]
    omega
  rw [staysInside_iff bordered_standard]
  simp only [hcanvas, hlandmark]

/-- A label of 115 characters. -/
def offer : String :=
  "Yes, please send me the weekly newsletter, the monthly catalogue and all of the " ++
    "other offers that might interest me"

set_option maxRecDepth 4096 in
/-- A button in a landmark with such a label ends on the right of both the background and the
canvas. -/
theorem not_staysInside_offer :
    ¬ StaysInside .standard (.ofText ("|| Main\n[[" ++ offer ++ "]]")) := by
  intro hinside
  have helements : (Document.ofText ("|| Main\n[[" ++ offer ++ "]]")).elements =
      [.landmark "Main" [.button offer]] := by rfl
  have hcanvas := ((staysInside_iff bordered_standard _).mp hinside).1
  rw [helements] at hcanvas
  have hends := hcanvas _ (List.mem_singleton.mpr rfl)
  have hwidth : (Theme.standard : Theme ℚ).pageWidth = (960 : ℕ) := by norm_num [Theme.standard]
  rw [hwidth, standard_button_le_iff (by decide)] at hends
  exact absurd hends (by decide)

end Layout

end Wireframe
