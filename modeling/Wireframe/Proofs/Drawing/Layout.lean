import Wireframe.Drawing.Layout
import Wireframe.Proofs.Xml.Escape

/-!
# What a layout holds

What an element is drawn as can be said without the shapes around it: it is one shape, with the
cursor after it, and both depend on nothing but the theme, the cursor and the element
(`Layout.drawElement`). Placing an element puts this shape behind those that are there
(`Flow.place_eq`), also for landmarks, whose content is placed into a flow of its own first. So a
layout is the shape of the title followed by the shapes of the elements
(`Layout.shapes_ofDocument`).

The words that stand in a shape beside its texts and colors are the layout's own: class names,
anchors, decorations and dashes. `Shape.Plain` says that they need no escaping. It holds of the
drawing of every element (`Layout.plain_drawElement`), at whatever depth the words stand.
-/

namespace Wireframe

variable {α : Type}

/-! ### Placement -/

section Placement

variable [Scalar α]

namespace Layout

mutual

/-- Draws one element at a cursor: its shape and the cursor after it. -/
def drawElement (theme : Theme α) (cursor : α) : Element → Shape α × α
  | .heading level content => drawHeading theme cursor level content
  | .button content => drawButton theme cursor content
  | .input content => drawInput theme cursor content
  | .image content => drawImage theme cursor content
  | .link content _ => drawLink theme cursor content
  | .skipLink content => drawLink theme cursor content
  | .text content => drawText theme cursor content
  | .listItem content => drawListItem theme cursor content
  | .divider => drawDivider theme cursor
  | .landmark name children =>
    let label := drawLandmarkLabel theme cursor name
    let content := drawElements theme label.2 children
    (.group "landmark"
        (.rect (landmarkBackground theme cursor content.2) :: label.1 :: content.1),
      content.2 + theme.spacing.afterLandmark)

/-- Draws elements one under the other: their shapes and the cursor after the last. -/
def drawElements (theme : Theme α) (cursor : α) : List Element → List (Shape α) × α
  | [] => ([], cursor)
  | element :: rest =>
    let first := drawElement theme cursor element
    let others := drawElements theme first.2 rest
    (first.1 :: others.1, others.2)

end

end Layout

namespace Flow

open Layout

mutual

/-- Placing an element puts the shape that it is drawn as behind those that are there. -/
theorem place_eq (theme : Theme α) (flow : Flow α) (element : Element) :
    flow.place theme element = flow.put (drawElement theme flow.cursor element) := by
  match element with
  | .heading .. | .button _ | .input _ | .image _ | .link .. | .skipLink _ | .text _
  | .listItem _ | .divider => rfl
  | .landmark name children =>
    rw [place, placeAll_eq theme (flow.openLandmark theme name) children]
    rfl

/-- Placing elements one after another draws them one under the other. -/
theorem placeAll_eq (theme : Theme α) (flow : Flow α) (elements : List Element) :
    flow.placeAll theme elements =
      ⟨(drawElements theme flow.cursor elements).2,
        flow.shapes ++ (drawElements theme flow.cursor elements).1⟩ := by
  match elements with
  | [] => rw [placeAll, drawElements, List.append_nil]
  | element :: rest =>
    rw [placeAll, place_eq theme flow element, placeAll_eq theme _ rest, put, List.append_assoc]
    rfl

end

/-- **Placing an element appends one shape** to those that are there, whatever they are; shape and
cursor are fixed by the theme, the old cursor and the element. For a landmark the shape is a group:
the background, the label, and what its children, placed one after another below the label, append
to any flow. The background ends at the cursor that they reach, and the new cursor is below it. -/
theorem place_appends (theme : Theme α) (cursor : α) :
    (∀ element, ∃ shape below, ∀ shapes,
      place theme ⟨cursor, shapes⟩ element = ⟨below, shapes ++ [shape]⟩) ∧
    ∀ name children, ∃ inside bottom,
      (∀ shapes, placeAll theme ⟨(drawLandmarkLabel theme cursor name).2, shapes⟩ children =
        ⟨bottom, shapes ++ inside⟩) ∧
      ∀ shapes, place theme ⟨cursor, shapes⟩ (.landmark name children) =
        ⟨bottom + theme.spacing.afterLandmark,
          shapes ++ [.group "landmark"
            (.rect (landmarkBackground theme cursor bottom) ::
              (drawLandmarkLabel theme cursor name).1 :: inside)]⟩ := by
  refine ⟨fun element => ?_, fun name children => ?_⟩
  · refine ⟨(drawElement theme cursor element).1, (drawElement theme cursor element).2, ?_⟩
    exact fun shapes => place_eq theme ⟨cursor, shapes⟩ element
  · let inside := drawElements theme (drawLandmarkLabel theme cursor name).2 children
    refine ⟨inside.1, inside.2, fun shapes => ?_, fun shapes => ?_⟩
    · exact placeAll_eq theme ⟨(drawLandmarkLabel theme cursor name).2, shapes⟩ children
    · exact place_eq theme ⟨cursor, shapes⟩ (.landmark name children)

end Flow

namespace Layout

/-- The shape of a title, if there is one. -/
def titleShapes (theme : Theme α) (title? : Option String) : List (Shape α) :=
  (title?.map fun title => (drawHeading theme theme.padding 1 title).1).toList

/-- A layout is the title, if there is one, and the elements below it. -/
theorem shapes_ofDocument (theme : Theme α) (document : Document) :
    (ofDocument theme document).shapes =
      titleShapes theme document.metadata.title? ++
        (drawElements theme (afterTitle theme document.metadata.title?).cursor
          document.elements).1 := by
  have htitle : (afterTitle theme document.metadata.title?).shapes =
      titleShapes theme document.metadata.title? := by
    cases document.metadata.title? <;> rfl
  rw [ofDocument, Flow.placeAll_eq, htitle]
  rfl

end Layout

end Placement

/-! ### Words of the layout's own -/

/-- Whether a word needs no escaping. -/
def PlainWord (word : String) : Prop := word.toList.all Xml.isPlain = true

instance (word : String) : Decidable (PlainWord word) :=
  inferInstanceAs (Decidable (word.toList.all Xml.isPlain = true))

namespace Shape

mutual

/-- Whether all words of the layout's own in a shape need no escaping. -/
def Plain : Shape α → Prop
  | text shape =>
    (∀ word ∈ shape.anchor, PlainWord word) ∧ ∀ word ∈ shape.decoration, PlainWord word
  | rect shape => ∀ word ∈ shape.dash, PlainWord word
  | line .. => True
  | circle .. => True
  | group className children => PlainWord className ∧ AllPlain children

/-- Whether all words of the layout's own in shapes need no escaping. -/
def AllPlain : List (Shape α) → Prop
  | [] => True
  | shape :: rest => shape.Plain ∧ AllPlain rest

end

theorem allPlain_append {shapes others : List (Shape α)} (h : AllPlain shapes)
    (hothers : AllPlain others) : AllPlain (shapes ++ others) := by
  induction shapes with
  | nil => exact hothers
  | cons shape rest ih => exact ⟨h.1, ih h.2⟩

theorem plain_text {shape : TextShape α}
    (hanchor : shape.anchor = none ∨ shape.anchor = some "middle")
    (hdecoration : shape.decoration = none ∨ shape.decoration = some "underline") :
    (text shape).Plain := by
  have hwords : PlainWord "middle" ∧ PlainWord "underline" := by decide
  constructor
  · rcases hanchor with h | h <;> simp [h, hwords]
  · rcases hdecoration with h | h <;> simp [h, hwords]

theorem plain_rect {shape : RectShape α} (h : shape.dash = none ∨ shape.dash = some "4,4") :
    (rect shape).Plain := by
  have hword : PlainWord "4,4" := by decide
  rw [Plain]
  rcases h with h | h <;> simp [h, hword]

end Shape

/-! ### Every drawing is plain -/

namespace Layout

variable [Scalar α]

open Shape

mutual

theorem plain_drawElement (theme : Theme α) (cursor : α) (element : Element) :
    (drawElement theme cursor element).1.Plain := by
  have hgroups : PlainWord "button" ∧ PlainWord "input-field" ∧ PlainWord "image-placeholder" ∧
      PlainWord "list-item" ∧ PlainWord "landmark" := by decide
  obtain ⟨hbutton, hinput, himage, hitem, hlandmark⟩ := hgroups
  match element with
  | .heading .. => exact plain_text (.inl rfl) (.inl rfl)
  | .button _ => exact ⟨hbutton, plain_rect (.inl rfl), plain_text (.inr rfl) (.inl rfl), trivial⟩
  | .input _ => exact ⟨hinput, plain_text (.inl rfl) (.inl rfl), plain_rect (.inl rfl), trivial⟩
  | .image _ =>
    exact ⟨himage, plain_rect (.inl rfl), trivial, trivial, plain_text (.inr rfl) (.inl rfl),
      trivial⟩
  | .link .. => exact plain_text (.inl rfl) (.inr rfl)
  | .skipLink _ => exact plain_text (.inl rfl) (.inr rfl)
  | .text _ => exact plain_text (.inl rfl) (.inl rfl)
  | .listItem _ => exact ⟨hitem, trivial, plain_text (.inl rfl) (.inl rfl), trivial⟩
  | .divider => trivial
  | .landmark _ children =>
    exact ⟨hlandmark, plain_rect (.inr rfl), plain_text (.inl rfl) (.inl rfl),
      plain_drawElements theme _ children⟩

theorem plain_drawElements (theme : Theme α) (cursor : α) (elements : List Element) :
    AllPlain (drawElements theme cursor elements).1 := by
  match elements with
  | [] => trivial
  | element :: rest =>
    exact ⟨plain_drawElement theme cursor element, plain_drawElements theme _ rest⟩

end

/-- The words that a layout puts into its shapes need no escaping. -/
theorem plain_ofDocument (theme : Theme α) (document : Document) :
    AllPlain (ofDocument theme document).shapes := by
  rw [shapes_ofDocument]
  refine allPlain_append ?_ (plain_drawElements theme _ _)
  rw [titleShapes]
  cases document.metadata.title? with
  | none => trivial
  | some title => exact ⟨plain_text (.inl rfl) (.inl rfl), trivial⟩

end Layout

end Wireframe
