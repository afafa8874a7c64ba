import Mathlib.Algebra.Order.Ring.Rat
import Mathlib.Data.List.Forall2
import Mathlib.Order.Interval.Set.UnorderedInterval
import Wireframe.Proofs.Drawing.Layout

/-!
# Where shapes are

Layouts can be read over exact numbers, where nothing is rounded. Then it makes sense to ask where a
shape is: at which heights of the canvas (`Shape.heights`), and where the rectangles and lines are
that it consists of (`Shape.parts`).

A landmark is a background, a label and what its children are drawn as. What is said of these three
is a law about landmarks, and `Element.Obeys` says that what an element is drawn as obeys a law at
every landmark in it, however deep. A law that depends on nothing but the children of a landmark is
obeyed if they are as it asks, at every landmark (`Layout.obeys_drawElements_iff`).
-/

namespace Wireframe

variable {α : Type}

/-! ### Exact numbers -/

namespace Numeral

/-- The decimal fraction that an exact number is, if it is one. The denominator of a decimal
fraction divides ten to the power of its own binary logarithm. -/
def ofRat (q : ℚ) : Numeral :=
  if q.den ∣ tenTo q.den.log2 then
    decimal (decide (q < 0)) (q.num.natAbs * (tenTo q.den.log2 / q.den)) (-q.den.log2)
  else nan

/-- The exact number that a numeral stands for; zero if it stands for none. -/
def toRat : Numeral → ℚ
  | finite negative coefficient exponent =>
    (if negative then -1 else 1) * coefficient * 10 ^ exponent
  | _ => 0

end Numeral

namespace Scalar

instance : Scalar ℚ where
  larger := max
  numeral := Numeral.ofRat
  ofNumeral := Numeral.toRat

theorem larger_eq_max (a b : ℚ) : larger a b = max a b := rfl

theorem ofNat_eq_cast (n : ℕ) : (ofNat n : ℚ) = n := by
  have h : (Rat.ofScientific n false 0 : ℚ) = n := by
    rw [Rat.ofScientific_false_def, pow_zero, mul_one]
  exact h

end Scalar

/-! ### Heights and columns -/

namespace Shape

mutual

/-- The heights of the canvas that a shape takes up: those of its rectangles, lines and circles, and
of the base lines of its texts. -/
def heights : Shape ℚ → Set ℚ
  | text shape => {shape.y}
  | rect shape => Set.uIcc shape.y (shape.y + shape.height)
  | line _ y1 _ y2 _ => Set.uIcc y1 y2
  | circle _ cy r _ => Set.uIcc (cy - r) (cy + r)
  | group _ children => heightsAll children

/-- The heights of the canvas that shapes take up. -/
def heightsAll : List (Shape ℚ) → Set ℚ
  | [] => ∅
  | shape :: rest => shape.heights ∪ heightsAll rest

end

mutual

/-- The texts, rectangles, lines and circles that a shape consists of, however deep they are in its
groups. -/
def parts : Shape α → List (Shape α)
  | group _ children => partsAll children
  | shape => [shape]

/-- The texts, rectangles, lines and circles that shapes consist of. -/
def partsAll : List (Shape α) → List (Shape α)
  | [] => []
  | shape :: rest => shape.parts ++ partsAll rest

end

/-- Whether a shape ends no lower than another one begins. -/
def Above (shape other : Shape ℚ) : Prop := ∀ y ∈ shape.heights, ∀ z ∈ other.heights, y ≤ z

/-- Shapes lie within rows if each of them does. -/
theorem heightsAll_subset_iff {shapes : List (Shape ℚ)} {rows : Set ℚ} :
    heightsAll shapes ⊆ rows ↔ ∀ shape ∈ shapes, shape.heights ⊆ rows := by
  induction shapes with
  | nil => simp [heightsAll]
  | cons shape rest ih => rw [heightsAll, Set.union_subset_iff, ih, List.forall_mem_cons]

theorem mem_partsAll {shapes : List (Shape α)} {part : Shape α} :
    part ∈ partsAll shapes ↔ ∃ shape ∈ shapes, part ∈ shape.parts := by
  induction shapes with
  | nil => simp [partsAll]
  | cons shape rest ih => simp [partsAll, ih]

end Shape

/-! ### Laws about landmarks -/

namespace Element

/-- Whether a shape obeys a law at every landmark of the element that it is drawn for, at whatever
depth. The law is about the background, the label and what the children are drawn as. -/
inductive Obeys (law : RectShape α → Shape α → List (Shape α) → Prop) : Element → Shape α → Prop
  | plain {element : Element} (shape : Shape α)
    (h : ∀ name children, element ≠ .landmark name children) : Obeys law element shape
  | landmark (name : String) {children : List Element} {background : RectShape α}
    {label : TextShape α} {shapes : List (Shape α)} (hlaw : law background (.text label) shapes)
    (hchildren : List.Forall₂ (Obeys law) children shapes) :
    Obeys law (.landmark name children)
      (.group "landmark" (.rect background :: .text label :: shapes))

mutual

/-- The children of each landmark in an element, at whatever depth. -/
def families : Element → List (List Element)
  | .landmark _ children => children :: familiesAll children
  | _ => []

/-- The children of each landmark in elements, at whatever depth. -/
def familiesAll : List Element → List (List Element)
  | [] => []
  | element :: rest => element.families ++ familiesAll rest

end

end Element

namespace Layout

variable [Scalar α] {theme : Theme α} {law : RectShape α → Shape α → List (Shape α) → Prop}
  {Fit : List Element → Prop}

open Element (Obeys familiesAll)

mutual

/-- What an element is drawn as obeys a law at every landmark if the children of each fit: the
cursor and the name do not matter. -/
theorem obeys_drawElement_iff
    (h : ∀ cursor name children, law
      (landmarkBackground theme cursor
        (drawElements theme (drawLandmarkLabel theme cursor name).2 children).2)
      (drawLandmarkLabel theme cursor name).1
      (drawElements theme (drawLandmarkLabel theme cursor name).2 children).1 ↔ Fit children)
    (cursor : α) (element : Element) :
    element.Obeys law (drawElement theme cursor element).1 ↔
      ∀ children ∈ element.families, Fit children := by
  match element with
  | .heading .. | .button _ | .input _ | .image _ | .link .. | .skipLink _ | .text _
  | .listItem _ | .divider => exact iff_of_true (.plain _ nofun) nofun
  | .landmark name children =>
    have hchildren :=
      obeys_drawElements_iff h (drawLandmarkLabel theme cursor name).2 children
    rw [Element.families, List.forall_mem_cons, ← h cursor name children, ← hchildren]
    constructor
    · intro hobeys
      cases hobeys with
      | plain _ hplain => exact absurd rfl (hplain name children)
      | landmark _ hlaw hshapes => exact ⟨hlaw, hshapes⟩
    · rintro ⟨hlaw, hshapes⟩
      exact .landmark name hlaw hshapes

/-- If a law depends on nothing but the children of a landmark, then elements are drawn by it if and
only if the children of every landmark are as it asks. -/
theorem obeys_drawElements_iff
    (h : ∀ cursor name children, law
      (landmarkBackground theme cursor
        (drawElements theme (drawLandmarkLabel theme cursor name).2 children).2)
      (drawLandmarkLabel theme cursor name).1
      (drawElements theme (drawLandmarkLabel theme cursor name).2 children).1 ↔ Fit children)
    (cursor : α) (elements : List Element) :
    List.Forall₂ (Obeys law) elements (drawElements theme cursor elements).1 ↔
      ∀ children ∈ familiesAll elements, Fit children := by
  match elements with
  | [] => exact iff_of_true .nil nofun
  | element :: rest =>
    rw [drawElements, List.forall₂_cons, familiesAll, List.forall_mem_append,
      obeys_drawElement_iff h cursor element, obeys_drawElements_iff h _ rest]

end

end Layout

end Wireframe
