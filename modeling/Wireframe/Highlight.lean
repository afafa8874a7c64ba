import Wireframe.Check.MetadataBlock
import Wireframe.Text.Lines
import Wireframe.Text.Search
import Wireframe.Text.Word

/-!
# Highlighting

Every line of a page falls into one of five visual categories, by the line as it is written. The
categories are tried in order; a line that none of them takes is plain.
-/

namespace Wireframe

/-- The visual category of a line. -/
inductive Category
  /-- A line of the metadata block. -/
  | metadata
  /-- Headings and landmarks. -/
  | structural
  /-- Region tags, layout directives and rules. -/
  | layout
  /-- Buttons, links, images, form fields and bullets. -/
  | interaction
  /-- Any other line. -/
  | plain
  deriving DecidableEq, Repr

namespace Category

/-- The name that a category is shown by. -/
def name : Category → String
  | metadata => "metadata"
  | structural => "structure"
  | layout => "layout"
  | interaction => "interaction"
  | plain => "default"

/-- The style class of a category in markup. -/
def cssClass (category : Category) : String := "hl-" ++ category.name

/-! ### What the categories look for -/

/-- Whether a line starts with a heading marker or the opening of a landmark. -/
def opensStructure : List Char → Bool
  | '#' :: _ => true
  | '|' :: '|' :: _ => true
  | _ => false

/-- Whether a list starts with blanks followed by the end of a region tag. -/
def endsTag (cs : List Char) : Bool :=
  match cs.span Text.isBlank with
  | ([], _) => false
  | (_, rest) => "Start]".toList.isPrefixOf rest || "End]".toList.isPrefixOf rest

/-- Whether the end of a region tag follows before the next line feed or right at it. -/
def reachesTagEnd : List Char → Bool
  | [] => false
  | c :: cs => endsTag (c :: cs) || (c != '\n' && reachesTagEnd cs)

/-- Whether a list starts with a region tag such as `[Header Start]`. -/
def startsTag : List Char → Bool
  | '[' :: cs => reachesTagEnd cs
  | _ => false

/-- Whether a line holds a region tag, a layout directive or a horizontal rule. -/
def hasLayout (line : List Char) : Bool :=
  Text.somewhere startsTag line ||
    ["[2 Columns]", "[Sidebar]", "[Card/Block]", "---"].any fun directive =>
      Text.occurs directive.toList line

/-- Whether `close` follows before the next line feed. -/
def reaches (close : Char) : List Char → Bool
  | [] => false
  | c :: cs => c == close || (c != '\n' && reaches close cs)

/-- Whether a list starts with an opening character whose closing one follows on the same line. -/
def startsPair (opening closing : Char) : List Char → Bool
  | c :: cs => c == opening && reaches closing cs
  | [] => false

/-- Whether a list starts with the end of a label, a colon and the opening of a form field. -/
def startsField : List Char → Bool
  | c :: ':' :: cs => Text.isWord c && (Text.trimStart cs).head? == some '['
  | _ => false

/-- Whether a line is an indented run of underscores, or starts with one that ends in a bracket. -/
def isIndentedBlank (line : List Char) : Bool :=
  match line.span Text.isBlank with
  | (_ :: _, '_' :: cs) =>
    let rest := cs.dropWhile (· == '_')
    Text.allBlank rest || rest.head? == some ']'
  | _ => false

/-- Whether a line starts with a bullet. -/
def startsBullet : List Char → Bool
  | '*' :: c :: _ => Text.isBlank c
  | _ => false

/-- Whether a line holds something to act on. -/
def hasInteraction (line : List Char) : Bool :=
  Text.somewhere (startsPair '[' ']') line || Text.somewhere (startsPair '<' '>') line ||
    Text.somewhere startsField line || isIndentedBlank line || startsBullet line

/-- The category of a line. -/
def ofLine (line : List Char) : Category :=
  if Check.isMetadataLine line then metadata
  else if opensStructure line then structural
  else if hasLayout line then layout
  else if hasInteraction line then interaction
  else plain

end Category

namespace Highlight

/-- The lines of a text as they are highlighted: every piece between two line feeds, without the
carriage returns at its end. -/
def displayLines (text : String) : List (List Char) := (Text.rows text.toList).map Text.dropReturns

/-- The numbers, counted from one, and the categories of the lines of a text. -/
def categories (text : String) : List (Nat × Category) :=
  ((displayLines text).zipIdx 1).map fun line => (line.2, Category.ofLine line.1)

/-- Writes a word for every occurrence of a character. -/
def replaceChar (c : Char) (word cs : List Char) : List Char :=
  cs.flatMap fun d => if d = c then word else [d]

/-- A line as it is written in markup. The ampersands come first, since the entities for the
brackets bring ampersands of their own. -/
def escape (line : List Char) : List Char :=
  replaceChar '>' "&gt;".toList
    (replaceChar '<' "&lt;".toList (replaceChar '&' "&amp;".toList line))

/-- The content shown for a line: an empty one keeps its height by a space. -/
def shown (line : List Char) : List Char := if line.isEmpty then [' '] else line

/-- The markup of one line. -/
def markupLine (line : List Char) : List Char :=
  ("<span class=\"" ++ (Category.ofLine line).cssClass ++ "\">").toList ++ escape (shown line) ++
    "</span>".toList

/-- The markup of a text, one element for each line, with line feeds between them. -/
def markup (text : String) : String :=
  String.ofList (Text.joinWith '\n' ((displayLines text).map markupLine))

end Highlight

end Wireframe
