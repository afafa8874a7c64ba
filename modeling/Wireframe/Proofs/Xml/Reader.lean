import Wireframe.Proofs.Xml.Grammar

/-!
# Reading XML

A reader for the documents of the grammar. Each part reads from the head of a list and answers
with what it has found and with what follows. Parts that repeat take a bound on the number of
steps; the length of the list is always enough.
-/

namespace Wireframe.Xml

/-- The entity at the head of a list, after its ampersand. -/
def entityAt? (cs : List Char) : Option (Char × List Char) :=
  entities.findSome? fun e =>
    if (e.1 ++ [';']).isPrefixOf cs then some (e.2, cs.drop (e.1.length + 1)) else none

/-- The character at the head of a list, which may be written as an entity. -/
def unit? : List Char → Option (Char × List Char)
  | [] => none
  | c :: cs =>
    if c = '&' then entityAt? cs
    else if c = '<' ∨ isChar c = false then none
    else some (c, cs)

/-- The text up to the closing quote. -/
def value? (quote : Char) : Nat → List Char → Option (List Char × List Char)
  | 0, _ => none
  | _ + 1, [] => none
  | n + 1, c :: cs =>
    if c = quote then some ([], cs)
    else
      (unit? (c :: cs)).bind fun first =>
        (value? quote n first.2).map fun others => (first.1 :: others.1, others.2)

/-- The name at the head of a list. -/
def name? (cs : List Char) : Option (List Char × List Char) :=
  match cs.span isNameChar with
  | ([], _) => none
  | (c :: name, rest) => if isNameStart c then some (c :: name, rest) else none

/-- The text in quotes at the head of a list. -/
def quoted? : List Char → Option (List Char × List Char)
  | [] => none
  | quote :: cs =>
    if quote = '"' ∨ quote = '\'' then value? quote (cs.length + 1) cs else none

/-- The attribute at the head of a list. -/
def attribute? (cs : List Char) : Option (Binding × List Char) :=
  (name? cs).bind fun name =>
    match name.2.dropWhile isSpace with
    | '=' :: cs =>
      (quoted? (cs.dropWhile isSpace)).map fun value => ((name.1, value.1), value.2)
    | _ => none

/-- Whether an attribute follows: white space, and then the beginning of a name. -/
def atAttribute (cs : List Char) : Bool :=
  cs.head?.any isSpace && (cs.dropWhile isSpace).head?.any isNameStart

/-- The attributes at the head of a list, and what follows them and white space. -/
def attributes? : Nat → List Char → Option (List Binding × List Char)
  | 0, _ => none
  | n + 1, cs =>
    if atAttribute cs then
      (attribute? (cs.dropWhile isSpace)).bind fun first =>
        (attributes? n first.2).map fun others => (first.1 :: others.1, others.2)
    else some ([], cs.dropWhile isSpace)

/-- The name and the attributes in a start tag, and what follows them and white space. -/
def tag? (cs : List Char) : Option ((List Char × List Binding) × List Char) :=
  (name? cs).bind fun name =>
    (attributes? (name.2.length + 1) name.2).bind fun found =>
      if (found.1.map (·.1)).Nodup then some ((name.1, found.1), found.2) else none

/-- The text up to the end of the comment. -/
def comment? : List Char → Option (List Char × List Char)
  | [] => none
  | '-' :: '-' :: '>' :: cs => some ([], cs)
  | '-' :: '-' :: _ => none
  | c :: cs =>
    if isChar c then (comment? cs).map fun found => (c :: found.1, found.2) else none

/-- What follows the end tag of an element. -/
def afterEndTag? (tag : List Char) : List Char → Option (List Char)
  | '<' :: '/' :: cs =>
    if tag.isPrefixOf cs then
      match (cs.drop tag.length).dropWhile isSpace with
      | '>' :: rest => some rest
      | _ => none
    else none
  | _ => none

/-- The items at the head of a list, up to an end tag or to the end. -/
def content? : Nat → List Char → Option (List Item × List Char)
  | 0, _ => none
  | _ + 1, [] => some ([], [])
  | _ + 1, '<' :: '/' :: cs => some ([], '<' :: '/' :: cs)
  | n + 1, '<' :: '!' :: '-' :: '-' :: cs =>
    (comment? cs).bind fun text =>
      (content? n text.2).map fun items => (.comment text.1 :: items.1, items.2)
  | n + 1, '<' :: cs =>
    (tag? cs).bind fun tag =>
      match tag.2 with
      | '/' :: '>' :: cs =>
        (content? n cs).map fun items => (.element tag.1.1 tag.1.2 [] :: items.1, items.2)
      | '>' :: cs =>
        (content? n cs).bind fun inner =>
          (afterEndTag? tag.1.1 inner.2).bind fun cs =>
            (content? n cs).map fun items =>
              (.element tag.1.1 tag.1.2 inner.1 :: items.1, items.2)
      | _ => none
  | n + 1, cs =>
    if "]]>".toList.isPrefixOf cs then none
    else
      (unit? cs).bind fun c =>
        (content? n c.2).map fun items => (.char c.1 :: items.1, items.2)

/-- The only element among items of which all others may stand beside a root. -/
def root? : List Item → Option Item
  | [] => none
  | item :: items =>
    if item.isMisc then root? items
    else if item.isElement && items.all Item.isMisc then some item
    else none

/-- What follows the declaration. -/
def afterDeclaration? : List Char → Option (List Char)
  | '<' :: '?' :: 'x' :: 'm' :: 'l' :: cs =>
    (attributes? (cs.length + 1) cs).bind fun found =>
      match found.2 with
      | '?' :: '>' :: rest => if found.1 ∈ declarations then some rest else none
      | _ => none
  | _ => none

/-- The root of the document that a text is, if its characters are taken as they stand. -/
def parse? (cs : List Char) : Option Item :=
  (afterDeclaration? cs).bind fun body =>
    match content? (body.length + 1) body with
    | some (items, []) => root? items
    | _ => none

example :
    (parse? "<?xml version='1.0'?><a b=\"&lt;\"><c/>x</a>".toList).isSome = true := by decide

end Wireframe.Xml
