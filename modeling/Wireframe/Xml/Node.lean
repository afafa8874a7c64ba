import Wireframe.Xml.Escape

/-!
# XML nodes

The shape of the documents that drawings are written as: elements, each on lines of its own and
indented by its depth, and comments. An element is empty, or holds text on the same line, or holds
other nodes. Attribute values and texts are kept as they are written, with their entities.
-/

namespace Wireframe.Xml

/-- The name of an attribute and its value as it is written. -/
structure Attribute where
  name : String
  value : List Char
  deriving DecidableEq, Repr

/-- A node of a document. -/
inductive Node
  /-- An element without content. -/
  | leaf (tag : String) (attributes : List Attribute)
  /-- An element that holds text, as it is written. -/
  | text (tag : String) (attributes : List Attribute) (content : List Char)
  /-- An element that holds other nodes. -/
  | branch (tag : String) (attributes : List Attribute) (children : List Node)
  /-- A comment, with its text as it is written. -/
  | comment (content : List Char)

/-- An attribute with a text as its value. -/
def Attribute.ofText (name value : String) : Attribute := ⟨name, escape value.toList⟩

namespace Attribute

/-- An attribute as it is written, with the space in front of it. -/
def write (a : Attribute) : List Char := ' ' :: a.name.toList ++ '=' :: '"' :: a.value ++ ['"']

/-- Attributes one after the other. -/
def writeAll (attributes : List Attribute) : List Char := attributes.flatMap write

end Attribute

namespace Node

/-- The blanks in front of a node at some depth. -/
def indent (depth : Nat) : List Char := List.replicate (2 * depth) ' '

/-- The opening of a tag, without its end. -/
def openTag (tag : String) (attributes : List Attribute) : List Char :=
  '<' :: tag.toList ++ Attribute.writeAll attributes

/-- The tag that closes an element. -/
def closeTag (tag : String) : List Char := '<' :: '/' :: tag.toList ++ ['>']

mutual

/-- A node as it is written at some depth, with the line feed at its end. -/
def write (depth : Nat) : Node → List Char
  | leaf tag attributes => indent depth ++ openTag tag attributes ++ ['/', '>', '\n']
  | text tag attributes content =>
    indent depth ++ openTag tag attributes ++ '>' :: content ++ closeTag tag ++ ['\n']
  | branch tag attributes children =>
    indent depth ++ openTag tag attributes ++ '>' :: '\n' :: writeAll (depth + 1) children ++
      indent depth ++ closeTag tag ++ ['\n']
  | comment content => indent depth ++ "<!-- ".toList ++ content ++ " -->\n".toList

/-- Nodes one below the other. -/
def writeAll (depth : Nat) : List Node → List Char
  | [] => []
  | node :: rest => write depth node ++ writeAll depth rest

end

end Node

/-- The line that a document begins with. -/
def declaration : List Char := "<?xml version=\"1.0\" encoding=\"UTF-8\"?>\n".toList

/-- A whole document with the given root. -/
def document (root : Node) : List Char := declaration ++ root.write 0

end Wireframe.Xml
