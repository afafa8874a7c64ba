import Mathlib.Data.List.Forall2
import Wireframe.Proofs.Drawing.Layout

/-!
# What the geometry depends on

Two pages have the same skeleton if they differ in nothing but their texts (`Element.SameSkeleton`).
Their layouts then have the same height, the cursor is the same below every element, and the shapes
agree in all but the texts that are written in them (`Layout.sameGeometry_ofDocument`).

There is one exception: a button is as wide as its label asks for, and the label stands in its
middle. Even there the width depends on nothing but the number of characters
(`Shape.SameGeometry.button`), and nothing beside or below a button depends on its width.
-/

namespace Wireframe

variable {α : Type}

/-! ### Skeletons -/

/-- Whether two elements differ in nothing but their texts: the same kinds of elements stand in the
same places, and headings have the same levels. -/
inductive Element.SameSkeleton : Element → Element → Prop
  | heading (level : ℕ) (text other : String) :
    SameSkeleton (.heading level text) (.heading level other)
  | button (text other : String) : SameSkeleton (.button text) (.button other)
  | image (description other : String) : SameSkeleton (.image description) (.image other)
  | input (label other : String) : SameSkeleton (.input label) (.input other)
  | link (text other : String) (url otherUrl : Option String) :
    SameSkeleton (.link text url) (.link other otherUrl)
  | text (content other : String) : SameSkeleton (.text content) (.text other)
  | listItem (content other : String) : SameSkeleton (.listItem content) (.listItem other)
  | divider : SameSkeleton .divider .divider
  | landmark (name other : String) {children others : List Element}
    (h : List.Forall₂ SameSkeleton children others) :
    SameSkeleton (.landmark name children) (.landmark other others)
  | skipLink (text other : String) : SameSkeleton (.skipLink text) (.skipLink other)

/-- Whether two shapes agree in all but the texts that are written in them. The frames of two
buttons may have different widths and their labels different places, unless the labels have the same
number of characters. -/
inductive Shape.SameGeometry : Shape α → Shape α → Prop
  | unchanged (shape : Shape α) : SameGeometry shape shape
  | text (shape : TextShape α) (content : String) :
    SameGeometry (.text shape) (.text { shape with content := content })
  | group (className : String) {shapes others : List (Shape α)}
    (h : List.Forall₂ SameGeometry shapes others) :
    SameGeometry (.group className shapes) (.group className others)
  | button (frame : RectShape α) (label : TextShape α) (width x : α) (content : String)
    (h : label.content.length = content.length → width = frame.width ∧ x = label.x) :
    SameGeometry (.group "button" [.rect frame, .text label])
      (.group "button"
        [.rect { frame with width := width }, .text { label with x := x, content := content }])

variable [Scalar α]

/-! ### Shapes -/

namespace Layout

open Shape (SameGeometry)

/-- Buttons differ in width alone. -/
theorem sameGeometry_drawButton (theme : Theme α) (cursor : α) (text other : String) :
    (drawButton theme cursor text).1.SameGeometry (drawButton theme cursor other).1 := by
  refine .button _ _ (buttonWidth theme other.length)
    (theme.padding + buttonWidth theme other.length / 2.0) other fun h => ?_
  have hlength : text.length = other.length := h
  rw [← hlength]
  exact ⟨rfl, rfl⟩

mutual

/-- Elements with the same skeleton are drawn with the same geometry and leave the same cursor. -/
theorem sameGeometry_drawElement (theme : Theme α) (cursor : α) {element other : Element}
    (h : element.SameSkeleton other) :
    (drawElement theme cursor element).1.SameGeometry (drawElement theme cursor other).1 ∧
      (drawElement theme cursor element).2 = (drawElement theme cursor other).2 := by
  match element, other, h with
  | _, _, .heading .. | _, _, .link .. | _, _, .skipLink .. | _, _, .text .. =>
    exact ⟨.text _ _, rfl⟩
  | _, _, .button text other => exact ⟨sameGeometry_drawButton theme cursor text other, rfl⟩
  | _, _, .image .. =>
    exact ⟨.group _ (.cons (.unchanged _) (.cons (.unchanged _) (.cons (.unchanged _)
      (.cons (.text _ _) .nil)))), rfl⟩
  | _, _, .input .. => exact ⟨.group _ (.cons (.text _ _) (.cons (.unchanged _) .nil)), rfl⟩
  | _, _, .listItem .. => exact ⟨.group _ (.cons (.unchanged _) (.cons (.text _ _) .nil)), rfl⟩
  | _, _, .divider => exact ⟨.unchanged _, rfl⟩
  | .landmark name children, .landmark other others, .landmark _ _ hchildren =>
    obtain ⟨hshapes, hbottom⟩ :=
      sameGeometry_drawElements theme (drawLandmarkLabel theme cursor name).2 hchildren
    -- the background ends where the children do
    refine ⟨.group _ (.cons ?_ (.cons (.text _ _) hshapes)), ?_⟩
    · rw [hbottom]
      exact .unchanged _
    · exact congrArg (· + theme.spacing.afterLandmark) hbottom

/-- Elements of one skeleton are drawn with one geometry, and leave one cursor. -/
theorem sameGeometry_drawElements (theme : Theme α) (cursor : α) {elements others : List Element}
    (h : List.Forall₂ Element.SameSkeleton elements others) :
    List.Forall₂ SameGeometry (drawElements theme cursor elements).1
        (drawElements theme cursor others).1 ∧
      (drawElements theme cursor elements).2 = (drawElements theme cursor others).2 := by
  match elements, others, h with
  | [], [], .nil => exact ⟨.nil, rfl⟩
  | element :: rest, other :: others, .cons helement hrest =>
    obtain ⟨hshape, hcursor⟩ := sameGeometry_drawElement theme cursor helement
    obtain ⟨hshapes, hbottom⟩ :=
      sameGeometry_drawElements theme (drawElement theme cursor element).2 hrest
    rw [drawElements, drawElements, ← hcursor]
    exact ⟨.cons hshape hshapes, hbottom⟩

end

end Layout

/-! ### Cursors -/

namespace Flow

mutual

/-- The cursors that are reached while an element is placed: below each element inside it, and then
below the element itself. -/
def cursors (theme : Theme α) (flow : Flow α) : Element → List α
  | .landmark name children =>
    (flow.openLandmark theme name).cursorsAll theme children ++
      [(flow.place theme (.landmark name children)).cursor]
  | element => [(flow.place theme element).cursor]

/-- The cursors that are reached while elements are placed one under the other. -/
def cursorsAll (theme : Theme α) (flow : Flow α) : List Element → List α
  | [] => []
  | element :: rest =>
    flow.cursors theme element ++ (flow.place theme element).cursorsAll theme rest

end

variable (theme : Theme α)

theorem cursor_place_eq {flow before : Flow α} (hcursor : flow.cursor = before.cursor)
    {element other : Element} (h : element.SameSkeleton other) :
    (flow.place theme element).cursor = (before.place theme other).cursor := by
  rw [place_eq, place_eq, hcursor]
  exact (Layout.sameGeometry_drawElement theme before.cursor h).2

mutual

/-- Elements with the same skeleton lead from the same cursor to the same cursors. -/
theorem cursors_eq {flow before : Flow α} (hcursor : flow.cursor = before.cursor)
    {element other : Element} (h : element.SameSkeleton other) :
    flow.cursors theme element = before.cursors theme other := by
  have hplace := cursor_place_eq theme hcursor h
  match element, other, h with
  | _, _, .heading .. | _, _, .button .. | _, _, .image .. | _, _, .input .. | _, _, .link ..
  | _, _, .text .. | _, _, .listItem .. | _, _, .divider | _, _, .skipLink .. =>
    exact congrArg (fun cursor => [cursor]) hplace
  | .landmark name children, .landmark other others, .landmark _ _ hchildren =>
    have hlabel : (flow.openLandmark theme name).cursor =
        (before.openLandmark theme other).cursor :=
      congrArg (fun cursor => (Layout.drawLandmarkLabel theme cursor name).2) hcursor
    rw [cursors, cursors, cursorsAll_eq hlabel hchildren, hplace]

/-- Elements of one skeleton put the cursor to the same heights, one after another. -/
theorem cursorsAll_eq {flow before : Flow α} (hcursor : flow.cursor = before.cursor)
    {elements others : List Element} (h : List.Forall₂ Element.SameSkeleton elements others) :
    flow.cursorsAll theme elements = before.cursorsAll theme others := by
  match elements, others, h with
  | [], [], .nil => rfl
  | element :: rest, other :: others, .cons helement hrest =>
    have hplace := cursor_place_eq theme hcursor helement
    rw [cursorsAll, cursorsAll, cursors_eq hcursor helement, cursorsAll_eq hplace hrest]

end

end Flow

/-! ### Layouts -/

namespace Layout

/-- Titles are drawn with one geometry, if there is one. -/
theorem sameGeometry_titleShapes (theme : Theme α) {title? other? : Option String}
    (h : title?.isSome = other?.isSome) :
    List.Forall₂ Shape.SameGeometry (titleShapes theme title?) (titleShapes theme other?) := by
  cases title? <;> cases other?
  · exact .nil
  · exact Bool.noConfusion h
  · exact Bool.noConfusion h
  · exact .cons (.text _ _) .nil

/-- Titles move the cursor alike, if there is one. -/
theorem cursor_afterTitle_eq (theme : Theme α) {title? other? : Option String}
    (h : title?.isSome = other?.isSome) :
    (afterTitle theme title?).cursor = (afterTitle theme other?).cursor := by
  cases title? <;> cases other?
  · rfl
  · exact Bool.noConfusion h
  · exact Bool.noConfusion h
  · rfl

/-- **The geometry depends on nothing but the skeleton.** If two pages both have a title or both
have none, and their elements differ in nothing but their texts, then the layouts have the same
height, the cursor is the same below every element, and the shapes have the same geometry. -/
theorem sameGeometry_ofDocument (theme : Theme α) {document other : Document}
    (htitle : document.metadata.title?.isSome = other.metadata.title?.isSome)
    (helements : List.Forall₂ Element.SameSkeleton document.elements other.elements) :
    (ofDocument theme document).height = (ofDocument theme other).height ∧
      (afterTitle theme document.metadata.title?).cursorsAll theme document.elements =
        (afterTitle theme other.metadata.title?).cursorsAll theme other.elements ∧
      List.Forall₂ Shape.SameGeometry (ofDocument theme document).shapes
        (ofDocument theme other).shapes := by
  have hcursor := cursor_afterTitle_eq theme htitle
  obtain ⟨hshapes, hbottom⟩ :=
    sameGeometry_drawElements theme (afterTitle theme other.metadata.title?).cursor helements
  refine ⟨?_, Flow.cursorsAll_eq theme hcursor helements, ?_⟩
  · rw [ofDocument, ofDocument, Flow.placeAll_eq, Flow.placeAll_eq, hcursor]
    exact congrArg (· + theme.padding) hbottom
  · rw [shapes_ofDocument, shapes_ofDocument, hcursor]
    exact List.rel_append (sameGeometry_titleShapes theme htitle) hshapes

/-- Two pages with landmarks in landmarks, empty texts and labels of different lengths. -/
theorem sameGeometry_ofDocument_nested :
    let page : Document :=
      ⟨(Metadata.empty.insert .title "Sign in").1,
        [.landmark "Main" [.button "Go", .landmark "" [.heading 2 "A"]], .link "Help" none]⟩
    let other : Document :=
      ⟨(Metadata.empty.insert .title "-").1,
        [.landmark "" [.button "Create account", .landmark "B" [.heading 2 ""]],
          .link "" (some "/help")]⟩
    page.metadata.title?.isSome = other.metadata.title?.isSome ∧
      List.Forall₂ Element.SameSkeleton page.elements other.elements ∧
      (ofDocument (Theme.standard : Theme Float) page).height =
        (ofDocument Theme.standard other).height ∧
      (afterTitle (Theme.standard : Theme Float) page.metadata.title?).cursorsAll .standard
          page.elements =
        (afterTitle .standard other.metadata.title?).cursorsAll .standard other.elements ∧
      List.Forall₂ Shape.SameGeometry (ofDocument (Theme.standard : Theme Float) page).shapes
        (ofDocument Theme.standard other).shapes := by
  intro page other
  have htitle : page.metadata.title?.isSome = other.metadata.title?.isSome := by decide
  have helements : List.Forall₂ Element.SameSkeleton page.elements other.elements :=
    .cons (.landmark _ _ (.cons (.button _ _) (.cons (.landmark _ _ (.cons (.heading ..) .nil))
      .nil))) (.cons (.link ..) .nil)
  exact ⟨htitle, helements, sameGeometry_ofDocument .standard htitle helements⟩

end Layout

end Wireframe
