import Wireframe.Text.Lines
import Wireframe.Document
import Wireframe.Line.Rule

/-!
# Reading a document

The lines of a text are read one after another into an outline: the metadata and elements so far,
and the landmark that is open, if one is. Elements go into the open landmark, or to the top level
while no landmark is open; opening a landmark closes the one before it, and so does the end of the
text.
-/

namespace Wireframe

/-- A document that is being read. -/
structure Outline where
  /-- The metadata so far. -/
  metadata : Metadata
  /-- The finished top-level elements. -/
  elements : List Element
  /-- Name and content of the open landmark. -/
  openLandmark : Option (String × List Element)

namespace Outline

/-- Before the first line. -/
def empty : Outline := ⟨.empty, [], none⟩

/-- The top-level elements, with the open landmark closed. -/
def closedElements (outline : Outline) : List Element :=
  match outline.openLandmark with
  | some (name, children) => outline.elements ++ [.landmark name children]
  | none => outline.elements

/-- Takes in what one line means. -/
def add (outline : Outline) : Line.Meaning → Outline
  | .entry key value => { outline with metadata := (outline.metadata.insert key value).1 }
  | .landmark name =>
    { outline with elements := outline.closedElements, openLandmark := some (name, []) }
  | .elements es =>
    match outline.openLandmark with
    | some (name, children) => { outline with openLandmark := some (name, children ++ es) }
    | none => { outline with elements := outline.elements ++ es }

/-- The document, at the end of the text. -/
def close (outline : Outline) : Document := ⟨outline.metadata, outline.closedElements⟩

end Outline

/-- What the lines of a text mean, in order; blank lines mean nothing. -/
def meanings (text : List Char) : List Line.Meaning :=
  (Text.lines text).filterMap fun line => (Line.read? line).map (·.2)

/-- The document that a text describes. Every text describes one. -/
def Document.ofText (text : String) : Document :=
  ((meanings text.toList).foldl Outline.add Outline.empty).close

end Wireframe
