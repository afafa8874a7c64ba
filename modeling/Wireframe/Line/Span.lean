import Wireframe.Text.Search

/-!
# Bracketed spans

The spans that a line may hold anywhere: links `[text]` and `[text](url)`, buttons `[[label]]` and
images `<description>`. Each recogniser looks at the head of a list of characters and answers with
what the span says and how many characters it takes up; `Text.allMatches` finds all of them.
-/

namespace Wireframe.Line

/-- A bracketed text with the destination written right after it, if there is one. -/
structure LinkSpan where
  /-- What stands between the square brackets: not empty, without `]`. -/
  text : List Char
  /-- What stands between the parentheses: not empty, without `)`. -/
  url : Option (List Char)
  deriving DecidableEq, Repr

/-- The destination at the head of a list: `(`, at least one character other than `)`, and `)`. -/
def destination? : List Char → Option (List Char)
  | '(' :: cs =>
    match cs.span (· != ')') with
    | ([], _) => none
    | (_, []) => none
    | (url, _ :: _) => some url
  | _ => none

/-- The link at the head of a list: `[`, at least one character other than `]`, and `]`, with the
destination if one follows at once. -/
def linkAt? : List Char → Option (LinkSpan × Nat)
  | '[' :: cs =>
    match cs.span (· != ']') with
    | ([], _) => none
    | (_, []) => none
    | (text, _ :: after) =>
      match destination? after with
      | some url => some (⟨text, some url⟩, text.length + url.length + 4)
      | none => some (⟨text, none⟩, text.length + 2)
  | _ => none

/-- The links of a line, from left to right. -/
def links (line : List Char) : List LinkSpan := Text.allMatches linkAt? line

/-- The characters in front of the first occurrence of `close`, if it occurs on the same line. -/
def upTo? (close : List Char) : List Char → Option (List Char)
  | [] => none
  | c :: cs =>
    if close.isPrefixOf (c :: cs) then some []
    else if c = '\n' then none
    else (upTo? close cs).map (c :: ·)

/-- The shortest non-empty run of characters in front of `close`, if there is one on the same
line. -/
def label? (close : List Char) : List Char → Option (List Char)
  | [] => none
  | c :: cs => if c = '\n' then none else (upTo? close cs).map (c :: ·)

/-- The button at the head of a list: `[[`, the shortest label, and `]]`. -/
def buttonAt? : List Char → Option (List Char × Nat)
  | '[' :: '[' :: cs => (label? [']', ']'] cs).map fun label => (label, label.length + 4)
  | _ => none

/-- The labels of the buttons of a line, from left to right. -/
def buttons (line : List Char) : List (List Char) := Text.allMatches buttonAt? line

/-- The image at the head of a list: `<`, the shortest description, and `>`. -/
def imageAt? : List Char → Option (List Char × Nat)
  | '<' :: cs => (label? ['>'] cs).map fun description => (description, description.length + 2)
  | _ => none

/-- The descriptions of the images of a line, from left to right. -/
def images (line : List Char) : List (List Char) := Text.allMatches imageAt? line

end Wireframe.Line
