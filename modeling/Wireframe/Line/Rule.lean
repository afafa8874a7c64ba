import Wireframe.Text.Case
import Wireframe.Metadata
import Wireframe.Element
import Wireframe.Line.Span

/-!
# The line rules

A page is read line by line. Eleven rules are tried on a line in a fixed order, and the first that
applies says what the line means: a metadata entry, the opening of a landmark, or elements. The last
rule takes every line that is not empty, so each line that is not blank means something.
-/

namespace Wireframe.Line

/-- What a line means. -/
inductive Meaning
  /-- A metadata entry. -/
  | entry (key : Metadata.Key) (value : String)
  /-- The opening of a landmark. -/
  | landmark (name : String)
  /-- Elements, in order. -/
  | elements (elements : List Element)
  deriving Repr

/-- The rules that give a line its meaning. -/
inductive Rule
  | metadata
  | landmark
  | skipLink
  | heading
  | buttons
  | image
  | input
  | links
  | divider
  | listItem
  | text
  deriving DecidableEq, Repr

/-- The level and the text of a heading: one to six `#`, at least one blank, and the rest of the
line. If nothing but blanks follows the markers, the last of them that is no line feed is the text,
provided that another blank stands before it. -/
def heading? (line : List Char) : Option (Nat × List Char) :=
  let (markers, rest) := line.span (· == '#')
  let (blanks, text) := rest.span Text.isBlank
  if markers.isEmpty || 6 < markers.length || blanks.isEmpty then none
  else if text.isEmpty then
    match blanks.reverse.dropWhile (· == '\n') with
    | last :: _ :: _ => some (markers.length, [last])
    | _ => none
  else some (markers.length, text.takeWhile (· != '\n'))

/-- The label of a form field: at least one character before the first colon, then blanks and a
bracketed run of underscores. -/
def input? (line : List Char) : Option (List Char) :=
  match line.span (· != ':') with
  | ([], _) => none
  | (_, []) => none
  | (label, _ :: rest) =>
    match Text.trimStart rest with
    | '[' :: '_' :: field =>
      match field.dropWhile (· == '_') with
      | ']' :: _ => some (Text.trim label)
      | _ => none
    | _ => none

/-- The words by which a skip link is known, in whatever case they are written. -/
def skipWords : List Char := "skip to main".toList

/-- Whether a line is a skip link. -/
def isSkipLink (line : List Char) : Bool := Text.occurs skipWords (Text.lowerCase line)

/-- The name in a line that opens a landmark. -/
def landmark? : List Char → Option (List Char)
  | '|' :: '|' :: ' ' :: name => some name
  | _ => none

/-- The content of a bullet. -/
def listItem? : List Char → Option (List Char)
  | '*' :: ' ' :: content => some content
  | '-' :: ' ' :: content => some content
  | _ => none

/-- Whether a line is a horizontal rule. -/
def isDivider (line : List Char) : Bool := line == ['-', '-', '-'] || line == ['*', '*', '*']

/-- The links of a line, none if the line opens with a blank to fill in. -/
def proseLinks (line : List Char) : List LinkSpan :=
  if ['[', '_'].isPrefixOf line then [] else links line

/-- The elements, if there is at least one. -/
def someElements : List Element → Option Meaning
  | [] => none
  | es => some (.elements es)

/-- The element that a bracketed link stands for. -/
def LinkSpan.element (span : LinkSpan) : Element :=
  .link (String.ofList span.text) (span.url.map String.ofList)

namespace Rule

/-- The rules in the order in which they are tried. -/
def inOrder : List Rule :=
  [metadata, landmark, skipLink, heading, buttons, image, input, links, divider, listItem, text]

/-- What a line means by one rule alone. -/
def meaning? (rule : Rule) (line : List Char) : Option Meaning :=
  match rule with
  | metadata => (Metadata.entry? line).map fun entry => .entry entry.1 (String.ofList entry.2)
  | landmark => (landmark? line).map fun name => .landmark (String.ofList name)
  | skipLink =>
    if isSkipLink line then some (.elements [.skipLink (String.ofList line)]) else none
  | heading =>
    (heading? line).map fun found => .elements [.heading found.1 (String.ofList found.2)]
  | buttons => someElements ((Line.buttons line).map fun label => .button (String.ofList label))
  | image =>
    (images line).head?.map fun description => .elements [.image (String.ofList description)]
  | input => (input? line).map fun label => .elements [.input (String.ofList label)]
  | links => someElements ((proseLinks line).map LinkSpan.element)
  | divider => if isDivider line then some (.elements [.divider]) else none
  | listItem => (listItem? line).map fun content => .elements [.listItem (String.ofList content)]
  | text => if line.isEmpty then none else some (.elements [.text (String.ofList line)])

end Rule

/-- The first rule that applies to a trimmed line, with what the line means by it. -/
def firstRule? (line : List Char) : Option (Rule × Meaning) :=
  Rule.inOrder.findSome? fun rule => (rule.meaning? line).map (rule, ·)

/-- The rule that a line is read by, and what it means; a blank line means nothing. -/
def read? (line : List Char) : Option (Rule × Meaning) :=
  let trimmed := Text.trim line
  if trimmed.isEmpty then none else firstRule? trimmed

end Wireframe.Line
