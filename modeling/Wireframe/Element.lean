/-!
# Elements of a page

What a wireframe page is made of, top to bottom. Landmarks are the only elements that hold others.
The type allows landmarks inside landmarks; reading a text never makes one.
-/

namespace Wireframe

/-- One element of a page. -/
inductive Element
  /-- A heading; level 1 is the page's own. -/
  | heading (level : Nat) (text : String)
  /-- An action. -/
  | button (text : String)
  /-- A place for an image. -/
  | image (description : String)
  /-- A form field. -/
  | input (label : String)
  /-- A link; without a destination it is not designed yet. -/
  | link (text : String) (url : Option String)
  /-- Running text. -/
  | text (content : String)
  /-- A bullet. -/
  | listItem (content : String)
  /-- A horizontal rule. -/
  | divider
  /-- A named region with the elements in it. -/
  | landmark (name : String) (children : List Element)
  /-- A link that skips to the main content. -/
  | skipLink (text : String)
  deriving Repr

namespace Element

/-- The elements right inside this one. -/
def children : Element → List Element
  | landmark _ children => children
  | _ => []

/-- Whether the element is a landmark. -/
def isLandmark : Element → Bool
  | landmark _ _ => true
  | _ => false

/-- The element itself, or what is right inside it if it is a landmark. -/
def leaves : Element → List Element
  | landmark _ children => children
  | element => [element]

/-- The level and text of a heading. -/
def heading? : Element → Option (Nat × String)
  | heading level content => some (level, content)
  | _ => none

/-- The name of a landmark. -/
def landmarkName? : Element → Option String
  | landmark name _ => some name
  | _ => none

end Element

end Wireframe
