import Mathlib.Tactic.Linarith
import Mathlib.Tactic.NormNum
import Mathlib.Tactic.Ring
import Wireframe.Proofs.Drawing.Regions

/-!
# Enclosure and stacking

Elements stand one under the other, and the background of a landmark encloses what is in the
landmark. In exact numbers this holds of every page (`Layout.enclosed_ofDocument`), whatever is
nested in what, provided that the theme leaves enough room (`Theme.Roomy`): no measure is negative,
the dot of a bullet is no higher than a line of text, the caption of a button or an image is no
lower than its frame, and the space behind a landmark is not smaller than the one below its last
child.

Each element is drawn between the cursor before and the cursor after it
(`Layout.spans_drawElement`), so shapes that are drawn from cursor to cursor are stacked
(`Shape.Stacks`).
-/

namespace Wireframe

open Set (Icc)

/-- Whether a theme leaves enough room for everything to be where it belongs. -/
structure Theme.Roomy (theme : Theme ℚ) : Prop where
  heading : ∀ level, 0 ≤ (theme.fonts.heading level).size
  label : 0 ≤ theme.fonts.label.size
  /-- The dot of a bullet reaches 8 units above the base line. -/
  body : 8 ≤ theme.fonts.body.size
  afterElement : 0 ≤ theme.spacing.afterElement
  small : 0 ≤ theme.spacing.small
  small_le : theme.spacing.small ≤ theme.spacing.afterLandmark
  /-- A caption stands 5 units below the middle of its frame. -/
  button : 10 ≤ theme.button.height
  input : 0 ≤ theme.input.height
  image : 10 ≤ theme.image.minHeight

namespace Shape

variable {top middle bottom lower : ℚ} {shape : Shape ℚ} {shapes : List (Shape ℚ)}

/-- Whether a shape is between two heights, the upper of which is no lower than the other one. -/
structure Spans (top bottom : ℚ) (shape : Shape ℚ) : Prop where
  le : top ≤ bottom
  heights : shape.heights ⊆ Icc top bottom

/-- Whether shapes are between two heights, each above those behind it. -/
structure Stacks (top bottom : ℚ) (shapes : List (Shape ℚ)) : Prop where
  le : top ≤ bottom
  heights : ∀ shape ∈ shapes, shape.heights ⊆ Icc top bottom
  above : shapes.Pairwise Above

theorem Above.of_heights {other : Shape ℚ} (h : shape.heights ⊆ Icc top middle)
    (hother : other.heights ⊆ Icc middle bottom) : shape.Above other := by
  intro y hy z hz
  exact (h hy).2.trans (hother hz).1

namespace Spans

theorem text {shape : TextShape ℚ} (h : shape.y ∈ Icc top bottom) :
    Spans top bottom (.text shape) :=
  ⟨h.1.trans h.2, Set.singleton_subset_iff.mpr h⟩

theorem line {x1 y1 x2 y2 : ℚ} {stroke : String} (h1 : y1 ∈ Icc top bottom)
    (h2 : y2 ∈ Icc top bottom) : Spans top bottom (.line x1 y1 x2 y2 stroke) :=
  ⟨h1.1.trans h1.2, Set.uIcc_subset_Icc h1 h2⟩

theorem rect {shape : RectShape ℚ} (h1 : shape.y ∈ Icc top bottom)
    (h2 : shape.y + shape.height ∈ Icc top bottom) : Spans top bottom (.rect shape) :=
  ⟨h1.1.trans h1.2, Set.uIcc_subset_Icc h1 h2⟩

theorem circle {cx cy r : ℚ} {fill : String} (h1 : cy - r ∈ Icc top bottom)
    (h2 : cy + r ∈ Icc top bottom) : Spans top bottom (.circle cx cy r fill) :=
  ⟨h1.1.trans h1.2, Set.uIcc_subset_Icc h1 h2⟩

theorem group {className : String} (hle : top ≤ bottom)
    (h : ∀ shape ∈ shapes, Spans top bottom shape) : Spans top bottom (.group className shapes) :=
  ⟨hle, heightsAll_subset_iff.mpr fun shape hshape => (h shape hshape).heights⟩

end Spans

namespace Stacks

theorem nil (top : ℚ) : Stacks top top [] := ⟨le_rfl, nofun, .nil⟩

/-- A shape with a stack right below it is a stack. -/
theorem cons (h : Spans top middle shape) (hrest : Stacks middle bottom shapes) :
    Stacks top bottom (shape :: shapes) := by
  refine ⟨h.le.trans hrest.le, List.forall_mem_cons.mpr ⟨?_, fun other hother => ?_⟩, ?_⟩
  · exact h.heights.trans (Set.Icc_subset_Icc_right hrest.le)
  · exact (hrest.heights other hother).trans (Set.Icc_subset_Icc_left h.le)
  · refine List.pairwise_cons.mpr ⟨fun other hother => ?_, hrest.above⟩
    exact .of_heights h.heights (hrest.heights other hother)

/-- A stack can be continued where another one ends. -/
theorem append {others : List (Shape ℚ)} (h : Stacks top middle shapes)
    (hothers : Stacks middle bottom others) : Stacks top bottom (shapes ++ others) := by
  refine ⟨h.le.trans hothers.le, List.forall_mem_append.mpr ⟨fun shape hshape => ?_,
    fun shape hshape => ?_⟩, List.pairwise_append.mpr ⟨h.above, hothers.above, ?_⟩⟩
  · exact (h.heights shape hshape).trans (Set.Icc_subset_Icc_right hothers.le)
  · exact (hothers.heights shape hshape).trans (Set.Icc_subset_Icc_left h.le)
  · intro shape hshape other hother
    exact .of_heights (h.heights shape hshape) (hothers.heights other hother)

theorem mono (h : Stacks top bottom shapes) (hle : bottom ≤ lower) : Stacks top lower shapes :=
  ⟨h.le.trans hle, fun shape hshape =>
    (h.heights shape hshape).trans (Set.Icc_subset_Icc_right hle), h.above⟩

theorem spans (h : Stacks top bottom shapes) (hshape : shape ∈ shapes) : Spans top bottom shape :=
  ⟨h.le, h.heights shape hshape⟩

end Stacks

/-- Whether a background covers the heights of a landmark's label and of what its children are
drawn as, and these are stacked. -/
def Encloses (background : RectShape ℚ) (label : Shape ℚ) (shapes : List (Shape ℚ)) : Prop :=
  (∀ shape ∈ label :: shapes,
    shape.heights ⊆ Icc background.y (background.y + background.height)) ∧
  (label :: shapes).Pairwise Above

end Shape

namespace Layout

open Shape (Spans Stacks Encloses)

variable {theme : Theme ℚ}

/-! ### Single elements -/

section Roomy

variable (h : theme.Roomy)

include h

/-- A heading lies between the cursor it is drawn at and the one it leaves. -/
theorem spans_drawHeading (cursor : ℚ) (level : ℕ) (content : String) :
    Spans cursor (drawHeading theme cursor level content).2
      (drawHeading theme cursor level content).1 := by
  have hsize := h.heading level
  have hafter := h.afterElement
  refine .text ⟨?_, ?_⟩ <;> simp -failIfUnchanged only [drawHeading, plainText] <;> linarith

theorem spans_drawButton (cursor : ℚ) (content : String) :
    Spans cursor (drawButton theme cursor content).2 (drawButton theme cursor content).1 := by
  have hheight := h.button
  have hafter := h.afterElement
  refine .group ?_ (List.forall_mem_cons.mpr ⟨.rect ⟨?_, ?_⟩ ⟨?_, ?_⟩,
    List.forall_mem_singleton.mpr (.text ⟨?_, ?_⟩)⟩) <;>
  simp -failIfUnchanged only [drawButton, plainText] <;> linarith

theorem spans_drawInput (cursor : ℚ) (content : String) :
    Spans cursor (drawInput theme cursor content).2 (drawInput theme cursor content).1 := by
  have hsize := h.label
  have hsmall := h.small
  have hheight := h.input
  have hafter := h.afterElement
  refine .group ?_ (List.forall_mem_cons.mpr ⟨.text ⟨?_, ?_⟩,
    List.forall_mem_singleton.mpr (.rect ⟨?_, ?_⟩ ⟨?_, ?_⟩)⟩) <;>
  simp -failIfUnchanged only [drawInput, plainText] <;> linarith

theorem spans_drawImage (cursor : ℚ) (content : String) :
    Spans cursor (drawImage theme cursor content).2 (drawImage theme cursor content).1 := by
  have hheight := h.image
  have hafter := h.afterElement
  refine .group ?_ (List.forall_mem_cons.mpr ⟨.rect ⟨?_, ?_⟩ ⟨?_, ?_⟩,
    List.forall_mem_cons.mpr ⟨.line ⟨?_, ?_⟩ ⟨?_, ?_⟩,
      List.forall_mem_cons.mpr ⟨.line ⟨?_, ?_⟩ ⟨?_, ?_⟩,
        List.forall_mem_singleton.mpr (.text ⟨?_, ?_⟩)⟩⟩⟩) <;>
  simp -failIfUnchanged only [drawImage, plainText] <;> linarith

theorem spans_drawLink (cursor : ℚ) (content : String) :
    Spans cursor (drawLink theme cursor content).2 (drawLink theme cursor content).1 := by
  have hsize := h.body
  have hafter := h.afterElement
  refine .text ⟨?_, ?_⟩ <;> simp -failIfUnchanged only [drawLink, plainText] <;> linarith

theorem spans_drawText (cursor : ℚ) (content : String) :
    Spans cursor (drawText theme cursor content).2 (drawText theme cursor content).1 := by
  have hsize := h.body
  have hafter := h.afterElement
  refine .text ⟨?_, ?_⟩ <;> simp -failIfUnchanged only [drawText, plainText] <;> linarith

theorem spans_drawListItem (cursor : ℚ) (content : String) :
    Spans cursor (drawListItem theme cursor content).2 (drawListItem theme cursor content).1 := by
  have hsize := h.body
  have hafter := h.afterElement
  refine .group ?_ (List.forall_mem_cons.mpr ⟨.circle ⟨?_, ?_⟩ ⟨?_, ?_⟩,
    List.forall_mem_singleton.mpr (.text ⟨?_, ?_⟩)⟩) <;>
  simp -failIfUnchanged only [drawListItem, plainText] <;> linarith

theorem spans_drawDivider (cursor : ℚ) :
    Spans cursor (drawDivider theme cursor).2 (drawDivider theme cursor).1 := by
  have hsmall := h.small
  have hafter := h.afterElement
  refine .line ⟨?_, ?_⟩ ⟨?_, ?_⟩ <;> simp -failIfUnchanged only [drawDivider] <;> linarith

theorem spans_drawLandmarkLabel (cursor : ℚ) (name : String) :
    Spans cursor (drawLandmarkLabel theme cursor name).2
      (drawLandmarkLabel theme cursor name).1 := by
  have hsize := h.label
  have hafter := h.afterElement
  refine .text ⟨?_, ?_⟩ <;> simp -failIfUnchanged only [drawLandmarkLabel, plainText] <;> linarith

/-! ### Landmarks -/

omit h in
theorem bottom_landmarkBackground (top bottom : ℚ) :
    (landmarkBackground theme top bottom).y + (landmarkBackground theme top bottom).height =
      bottom + theme.spacing.small := by
  simp only [landmarkBackground]
  ring

/-- The background of a landmark ends below what is stacked in it and above the cursor after it. -/
theorem spans_landmark {cursor bottom : ℚ} {label : Shape ℚ} {shapes : List (Shape ℚ)}
    (hinside : Stacks cursor bottom (label :: shapes)) :
    Spans cursor (bottom + theme.spacing.afterLandmark)
      (.group "landmark" (.rect (landmarkBackground theme cursor bottom) :: label :: shapes)) := by
  have hle := hinside.le
  have hsmall := h.small
  have hsmall_le := h.small_le
  have hlower : bottom ≤ bottom + theme.spacing.afterLandmark := by linarith
  refine .group (hle.trans hlower) (List.forall_mem_cons.mpr ⟨.rect ⟨?_, ?_⟩ ⟨?_, ?_⟩, ?_⟩)
  · exact le_rfl
  · exact hle.trans hlower
  · rw [bottom_landmarkBackground]
    linarith
  · rw [bottom_landmarkBackground]
    linarith
  · exact fun shape hshape => (hinside.mono hlower).spans hshape

/-- The background encloses the label and all that is stacked below it. -/
theorem encloses_landmarkBackground {cursor bottom : ℚ} {label : Shape ℚ} {shapes : List (Shape ℚ)}
    (hinside : Stacks cursor bottom (label :: shapes)) :
    Encloses (landmarkBackground theme cursor bottom) label shapes := by
  have hsmall := h.small
  have hlower : bottom ≤ bottom + theme.spacing.small := by linarith
  refine ⟨fun shape hshape => ?_, hinside.above⟩
  rw [bottom_landmarkBackground]
  exact (hinside.mono hlower).heights shape hshape

end Roomy

/-! ### All elements -/

mutual

/-- An element is drawn between the cursor before and the cursor after it. -/
theorem spans_drawElement (h : theme.Roomy) (cursor : ℚ) (element : Element) :
    Spans cursor (drawElement theme cursor element).2 (drawElement theme cursor element).1 := by
  match element with
  | .heading level content => exact spans_drawHeading h cursor level content
  | .button content => exact spans_drawButton h cursor content
  | .input content => exact spans_drawInput h cursor content
  | .image content => exact spans_drawImage h cursor content
  | .link content _ | .skipLink content => exact spans_drawLink h cursor content
  | .text content => exact spans_drawText h cursor content
  | .listItem content => exact spans_drawListItem h cursor content
  | .divider => exact spans_drawDivider h cursor
  | .landmark name children =>
    exact spans_landmark h
      (.cons (spans_drawLandmarkLabel h cursor name) (stacks_drawElements h _ children))

/-- Elements are stacked between the cursor before the first and the cursor after the last. -/
theorem stacks_drawElements (h : theme.Roomy) (cursor : ℚ) (elements : List Element) :
    Stacks cursor (drawElements theme cursor elements).2
      (drawElements theme cursor elements).1 := by
  match elements with
  | [] => exact .nil cursor
  | element :: rest =>
    exact .cons (spans_drawElement h cursor element) (stacks_drawElements h _ rest)

end

/-! ### Whole pages -/

/-- The title lies between the upper border and the cursor behind it. -/
theorem stacks_titleShapes (h : theme.Roomy) (title? : Option String) :
    Stacks theme.padding (afterTitle theme title?).cursor (titleShapes theme title?) := by
  have hsmall := h.small
  cases title? with
  | none => exact .nil _
  | some title =>
    have htitle := Stacks.cons (spans_drawHeading h theme.padding 1 title) (.nil _)
    refine htitle.mono (?_ : _ ≤ (drawHeading theme theme.padding 1 title).2 + theme.spacing.small)
    linarith

/-- **The background of a landmark encloses it, and elements are stacked.** What is drawn for the
elements of a page stands behind the title. At every landmark, at whatever depth, the background
covers the heights of the label and of all that is drawn for the children, and each of these ends no
lower than those behind it begin. So does each shape of the whole page, and all of them are between
the upper and the lower border. -/
theorem enclosed_ofDocument (h : theme.Roomy) (document : Document) :
    ∃ shapes, (ofDocument theme document).shapes =
        titleShapes theme document.metadata.title? ++ shapes ∧
      List.Forall₂ (Element.Obeys Encloses) document.elements shapes ∧
      (ofDocument theme document).shapes.Pairwise Shape.Above ∧
      ∀ shape ∈ (ofDocument theme document).shapes,
        shape.heights ⊆ Icc theme.padding ((ofDocument theme document).height - theme.padding) := by
  have htitle := stacks_titleShapes h document.metadata.title?
  have helements := stacks_drawElements h (afterTitle theme document.metadata.title?).cursor
    document.elements
  -- the title and the elements are one stack from border to border
  have hpage := htitle.append helements
  have hheight : (ofDocument theme document).height - theme.padding =
      (drawElements theme (afterTitle theme document.metadata.title?).cursor
        document.elements).2 := by
    rw [ofDocument, Flow.placeAll_eq]
    exact add_sub_cancel_right _ _
  refine ⟨_, shapes_ofDocument theme document, ?_, ?_, ?_⟩
  · refine (obeys_drawElements_iff (fun cursor name children =>
      iff_true_intro (encloses_landmarkBackground h ?_)) _ document.elements).mpr fun _ _ => trivial
    exact .cons (spans_drawLandmarkLabel h cursor name) (stacks_drawElements h _ children)
  · rw [shapes_ofDocument]
    exact hpage.above
  · rw [shapes_ofDocument, hheight]
    exact hpage.heights

/-- The standard theme leaves room. -/
theorem roomy_standard : (Theme.standard : Theme ℚ).Roomy := by
  constructor
  case heading =>
    intro level
    rw [Fonts.heading.eq_def]
    split <;> norm_num [Theme.standard, Fonts.standard]
  all_goals
    norm_num [Theme.standard, Fonts.standard, Spacing.standard, ButtonStyle.standard,
      InputStyle.standard, ImageStyle.standard]

/-- A page with a title and a landmark in a landmark, in the standard theme. -/
theorem enclosed_ofDocument_nested :
    let theme : Theme ℚ := .standard
    let page : Document :=
      ⟨(Metadata.empty.insert .title "Home").1,
        [.landmark "Main" [.image "Hero", .landmark "News" [.listItem "One", .input "Mail"]],
          .divider]⟩
    theme.Roomy ∧ ∃ shapes, (ofDocument theme page).shapes =
        titleShapes theme page.metadata.title? ++ shapes ∧
      List.Forall₂ (Element.Obeys Encloses) page.elements shapes ∧
      (ofDocument theme page).shapes.Pairwise Shape.Above ∧
      ∀ shape ∈ (ofDocument theme page).shapes,
        shape.heights ⊆ Icc theme.padding ((ofDocument theme page).height - theme.padding) := by
  intro theme page
  exact ⟨roomy_standard, enclosed_ofDocument roomy_standard page⟩

end Layout

end Wireframe
