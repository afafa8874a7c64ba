import Wireframe.Metadata
import Wireframe.Element

/-!
# Documents

A document is what a page's text says: its metadata and its elements in reading order.
-/

namespace Wireframe

/-- A page: metadata and the elements at the top level. -/
@[ext]
structure Document where
  /-- The page's metadata. -/
  metadata : Metadata
  /-- The top-level elements, landmarks with their content. -/
  elements : List Element

namespace Document

/-- The number of elements, counting each landmark and what is right inside it. -/
def elementCount (document : Document) : Nat :=
  (document.elements.flatMap fun element => element :: element.children).length

/-- The elements in reading order, without the landmarks around them. -/
def leaves (document : Document) : List Element := document.elements.flatMap Element.leaves

/-- The number of elements that are not landmarks of the page. -/
def leafCount (document : Document) : Nat := document.leaves.length

/-- Level and text of the headings in reading order. -/
def headings (document : Document) : List (Nat × String) :=
  document.leaves.filterMap Element.heading?

/-- The names of the landmarks in reading order. -/
def landmarkNames (document : Document) : List String :=
  document.elements.filterMap Element.landmarkName?

end Document

end Wireframe
