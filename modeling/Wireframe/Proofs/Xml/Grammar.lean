import Wireframe.Xml.Node

/-!
# The grammar of XML

What it is for a text to be an XML document, as a relation between the text and the tree that
it stands for. The productions are those of XML 1.0 for a document with a declaration, one
root element, comments, attributes in either kind of quotes, and the five predefined
entities; document types, processing instructions, CDATA sections and character references
are left out, so whatever is derived here is well-formed XML and uses none of these.

Content is kept character by character (`Item.char`), whether a character stands for itself
or is written as an entity. That leaves no choice of where one run of text ends and the next
begins, and a text has one tree at most.

Characters are taken as they stand. A carriage return is a character like any other here; that a
reader makes the line ends of a file alike first (`unifyLineEnds`) is no part of the grammar.
-/

namespace Wireframe.Xml

/-! ### Characters and names -/

/-- Whether the code point of a character lies in one of the given ranges. -/
def inRanges (ranges : List (Nat × Nat)) (c : Char) : Bool :=
  ranges.any fun range => range.1 ≤ c.toNat && c.toNat ≤ range.2

/-- The characters of a document. -/
def isChar : Char → Bool :=
  inRanges [(0x9, 0xA), (0xD, 0xD), (0x20, 0xD7FF), (0xE000, 0xFFFD), (0x10000, 0x10FFFF)]

/-- White space. -/
def isSpace (c : Char) : Bool := c == ' ' || c == '\t' || c == '\r' || c == '\n'

/-- The characters that a name may begin with. -/
def isNameStart : Char → Bool :=
  inRanges [(0x3A, 0x3A), (0x41, 0x5A), (0x5F, 0x5F), (0x61, 0x7A), (0xC0, 0xD6), (0xD8, 0xF6),
    (0xF8, 0x2FF), (0x370, 0x37D), (0x37F, 0x1FFF), (0x200C, 0x200D), (0x2070, 0x218F),
    (0x2C00, 0x2FEF), (0x3001, 0xD7FF), (0xF900, 0xFDCF), (0xFDF0, 0xFFFD), (0x10000, 0xEFFFF)]

/-- The characters of a name. -/
def isNameChar (c : Char) : Bool :=
  isNameStart c ||
    inRanges [(0x2D, 0x2E), (0x30, 0x39), (0xB7, 0xB7), (0x300, 0x36F), (0x203F, 0x2040)] c

/-- A name: name characters, the first of which may begin one. -/
def IsName (name : List Char) : Prop :=
  (∃ c cs, name = c :: cs ∧ isNameStart c = true) ∧ ∀ c ∈ name, isNameChar c = true

instance (name : List Char) : Decidable (IsName name) :=
  match name with
  | [] => .isFalse fun ⟨⟨_, _, h, _⟩, _⟩ => nomatch h
  | c :: cs =>
    decidable_of_iff (isNameStart c = true ∧ (c :: cs).all isNameChar = true)
      ⟨fun h => ⟨⟨c, cs, rfl, h.1⟩, List.all_eq_true.mp h.2⟩, fun ⟨⟨_, _, h, hstart⟩, hchars⟩ =>
        ⟨by injection h with h; exact h ▸ hstart, List.all_eq_true.mpr hchars⟩⟩

/-! ### Characters as they are written -/

/-- The entities that need no declaration, with the characters they stand for. -/
def entities : List (List Char × Char) :=
  [("amp".toList, '&'), ("lt".toList, '<'), ("gt".toList, '>'), ("quot".toList, '"'),
    ("apos".toList, '\'')]

theorem isChar_of_mem_entities {e : List Char × Char} (h : e ∈ entities) :
    e.1.all isChar = true ∧ isChar e.2 = true := by
  have hall : (entities.all fun e => e.1.all isChar && isChar e.2) = true := by decide
  simpa only [Bool.and_eq_true] using List.all_eq_true.mp hall e h

/-- The names of entities are words of small letters. -/
theorem not_mem_of_mem_entities {e : List Char × Char} {c : Char} (h : e ∈ entities)
    (hc : c.isLower = false) : c ∉ e.1 := by
  have hall : (entities.all fun e => e.1.all Char.isLower) = true := by decide
  intro hmem
  have := List.all_eq_true.mp (List.all_eq_true.mp hall e h) c hmem
  rw [hc] at this
  exact Bool.noConfusion this

/-- A character in text or in an attribute value: itself, unless it would be read as markup,
or the entity for it. -/
inductive IsUnit : Char → List Char → Prop
  | plain {c : Char} : isChar c = true → c ≠ '<' → c ≠ '&' → IsUnit c [c]
  | entity {c : Char} {name : List Char} :
      (name, c) ∈ entities → IsUnit c ('&' :: name ++ [';'])

/-- A text between quotes of the given kind, none of which stands in it as itself. -/
inductive IsValue (quote : Char) : List Char → List Char → Prop
  | nil : IsValue quote [] []
  | cons {c : Char} {w value cs : List Char} :
      IsUnit c w → w ≠ [quote] → IsValue quote value cs → IsValue quote (c :: value) (w ++ cs)

/-- The text of a comment: no two hyphens side by side, and none at the end. -/
structure IsComment (text : List Char) : Prop where
  isChar : ∀ c ∈ text, isChar c = true
  not_double : ¬ ['-', '-'] <:+: text
  not_last : text.getLast? ≠ some '-'

/-! ### Tags -/

/-- The name of an attribute and its value. -/
abbrev Binding := List Char × List Char

/-- An attribute: its name, an equals sign, and the value in quotes. -/
inductive IsAttribute : Binding → List Char → Prop
  | mk {name value before after w : List Char} {quote : Char} :
      IsName name → before.all isSpace = true → after.all isSpace = true →
      (quote = '"' ∨ quote = '\'') → IsValue quote value w →
      IsAttribute (name, value) (name ++ before ++ '=' :: after ++ quote :: w ++ [quote])

/-- Attributes, each with white space in front of it. -/
inductive IsAttributes : List Binding → List Char → Prop
  | nil : IsAttributes [] []
  | cons {a : Binding} {as : List Binding} {space w cs : List Char} :
      space ≠ [] → space.all isSpace = true → IsAttribute a w → IsAttributes as cs →
      IsAttributes (a :: as) (space ++ w ++ cs)

/-- What stands in a start tag: the name of the element and its attributes, which have
different names. -/
inductive IsTag : List Char → List Binding → List Char → Prop
  | mk {name w space : List Char} {attributes : List Binding} :
      IsName name → IsAttributes attributes w → (attributes.map (·.1)).Nodup →
      space.all isSpace = true → IsTag name attributes (name ++ w ++ space)

/-! ### Content -/

/-- What an element holds: characters, comments and elements. -/
inductive Item
  | char (c : Char)
  | comment (text : List Char)
  | element (tag : List Char) (attributes : List Binding) (content : List Item)

/-- The content of an element as it is written. An element without content may be written as
one tag; otherwise its start tag is matched by an end tag of the same name. -/
inductive IsContent : List Item → List Char → Prop
  | nil : IsContent [] []
  | char {c : Char} {w cs : List Char} {items : List Item} :
      IsUnit c w → ¬ "]]>".toList <+: w ++ cs → IsContent items cs →
      IsContent (.char c :: items) (w ++ cs)
  | comment {text cs : List Char} {items : List Item} :
      IsComment text → IsContent items cs →
      IsContent (.comment text :: items) ("<!--".toList ++ text ++ "-->".toList ++ cs)
  | empty {tag w cs : List Char} {attributes : List Binding} {items : List Item} :
      IsTag tag attributes w → IsContent items cs →
      IsContent (.element tag attributes [] :: items) ('<' :: w ++ "/>".toList ++ cs)
  | element {tag w inner space cs : List Char} {attributes : List Binding}
      {content items : List Item} :
      IsTag tag attributes w → IsContent content inner → space.all isSpace = true →
      IsContent items cs →
      IsContent (.element tag attributes content :: items)
        ('<' :: w ++ '>' :: inner ++ "</".toList ++ tag ++ space ++ '>' :: cs)

/-! ### Documents -/

/-- What may stand beside the root of a document: white space and comments. -/
def Item.isMisc : Item → Bool
  | char c => isSpace c
  | comment _ => true
  | element .. => false

/-- Whether an item is an element. -/
def Item.isElement : Item → Bool
  | element .. => true
  | _ => false

/-- What a declaration may say: the version, and after it the encoding. -/
def declarations : List (List Binding) :=
  let version := ("version".toList, "1.0".toList)
  [[version], [version, ("encoding".toList, "UTF-8".toList)]]

/-- The declaration that a document begins with. -/
inductive IsDeclaration : List Char → Prop
  | mk {w space : List Char} {bindings : List Binding} :
      bindings ∈ declarations → IsAttributes bindings w → space.all isSpace = true →
      IsDeclaration ("<?xml".toList ++ w ++ space ++ "?>".toList)

/-- A document: the declaration and one element, with nothing but white space and comments
around it. -/
inductive IsDocument : Item → List Char → Prop
  | mk {root : Item} {before after : List Item} {head body : List Char} :
      IsDeclaration head → root.isElement = true → before.all Item.isMisc = true →
      after.all Item.isMisc = true → IsContent (before ++ root :: after) body →
      IsDocument root (head ++ body)

/-- Every ampersand begins an entity, wherever it stands. -/
def NamesEntities (cs : List Char) : Prop :=
  ∀ after, '&' :: after <:+ cs → ∃ e ∈ entities, e.1 ++ [';'] <+: after

/-- A well-formed document that uses no entities but the predefined ones, not even in its
comments. -/
structure WellFormed (cs : List Char) : Prop where
  isChar : ∀ c ∈ cs, isChar c = true
  isDocument : ∃ root, IsDocument root cs
  namesEntities : NamesEntities cs

/-! ### A document holds nothing but characters -/

/-- The characters of names are characters of XML. -/
theorem isChar_of_isNameChar {c : Char} (h : isNameChar c = true) : isChar c = true := by
  simp only [isNameChar, isNameStart, inRanges, List.any_cons, List.any_nil, Bool.or_eq_true,
    Bool.and_eq_true, decide_eq_true_eq, Bool.or_false] at h
  simp only [isChar, inRanges, List.any_cons, List.any_nil, Bool.or_eq_true, Bool.and_eq_true,
    decide_eq_true_eq, Bool.or_false]
  omega

theorem isChar_of_isSpace {c : Char} (h : isSpace c = true) : isChar c = true := by
  simp only [isSpace, Bool.or_eq_true, beq_iff_eq] at h
  rcases h with ((rfl | rfl) | rfl) | rfl <;> decide

private theorem all_isChar_of_all_isSpace {cs : List Char} (h : cs.all isSpace = true) :
    cs.all isChar = true :=
  List.all_eq_true.mpr fun c hc => isChar_of_isSpace (List.all_eq_true.mp h c hc)

theorem IsName.all_isChar {name : List Char} (h : IsName name) : name.all isChar = true :=
  List.all_eq_true.mpr fun c hc => isChar_of_isNameChar (h.2 c hc)

theorem IsUnit.all_isChar {c : Char} {w : List Char} (h : IsUnit c w) :
    w.all isChar = true := by
  cases h with
  | plain hc => simpa using hc
  | entity hname =>
    have hmarkup : isChar '&' = true ∧ isChar ';' = true := by decide
    simp only [List.all_append, List.all_cons, List.all_nil, hmarkup,
      (isChar_of_mem_entities hname).1, Bool.and_self]

theorem IsValue.all_isChar {quote : Char} {value w : List Char} (h : IsValue quote value w) :
    w.all isChar = true := by
  induction h with
  | nil => rfl
  | cons hunit _ _ ih => rw [List.all_append, hunit.all_isChar, ih]; rfl

theorem IsAttribute.all_isChar {a : Binding} {w : List Char} (h : IsAttribute a w) :
    w.all isChar = true := by
  cases h with
  | @mk _ _ _ _ _ quote hname hbefore hafter hquote hvalue =>
    have hquote : isChar quote = true := by rcases hquote with rfl | rfl <;> decide
    have heq : isChar '=' = true := by decide
    simp only [List.all_append, List.all_cons, List.all_nil, hname.all_isChar,
      all_isChar_of_all_isSpace hbefore, all_isChar_of_all_isSpace hafter, hvalue.all_isChar,
      hquote, heq, Bool.and_self]

theorem IsAttributes.all_isChar {as : List Binding} {w : List Char} (h : IsAttributes as w) :
    w.all isChar = true := by
  induction h with
  | nil => rfl
  | cons _ hspace ha _ ih =>
    simp only [List.all_append, all_isChar_of_all_isSpace hspace, ha.all_isChar, ih,
      Bool.and_self]

theorem IsTag.all_isChar {tag w : List Char} {attributes : List Binding}
    (h : IsTag tag attributes w) : tag.all isChar = true ∧ w.all isChar = true := by
  cases h with
  | mk hname hattributes _ hspace =>
    simp only [List.all_append, hname.all_isChar, hattributes.all_isChar,
      all_isChar_of_all_isSpace hspace, Bool.and_self, and_self]

/-- Content has characters of XML only, at any depth. -/
theorem IsContent.all_isChar {items : List Item} {w : List Char} (h : IsContent items w) :
    w.all isChar = true := by
  have hmarkup : isChar '<' = true ∧ isChar '>' = true ∧ "<!--".toList.all isChar = true ∧
      "-->".toList.all isChar = true ∧ "/>".toList.all isChar = true ∧
      "</".toList.all isChar = true := by decide
  obtain ⟨hopen, hclose, hcomment, hcommentEnd, hempty, hend⟩ := hmarkup
  induction h with
  | nil => rfl
  | char hunit _ _ ih => simp only [List.all_append, hunit.all_isChar, ih, Bool.and_self]
  | comment htext _ ih =>
    have := List.all_eq_true.mpr htext.isChar
    simp only [List.all_append, this, ih, hcomment, hcommentEnd, Bool.and_self]
  | empty htag _ ih =>
    simp only [List.all_append, List.all_cons, htag.all_isChar.2, ih, hopen, hempty,
      Bool.and_self]
  | element htag _ hspace _ ihinner ih =>
    simp only [List.all_append, List.all_cons, htag.all_isChar.1, htag.all_isChar.2,
      all_isChar_of_all_isSpace hspace, ihinner, ih, hopen, hclose, hend, Bool.and_self]

/-- A document has characters of XML only. -/
theorem IsDocument.isChar {root : Item} {cs : List Char} (h : IsDocument root cs) :
    ∀ c ∈ cs, isChar c = true := by
  cases h with
  | @mk before after head body hhead _ _ _ hcontent =>
    obtain ⟨-, hattributes, hspace⟩ := hhead
    have hmarkup : "<?xml".toList.all Xml.isChar = true ∧ "?>".toList.all Xml.isChar = true := by
      decide
    refine List.all_eq_true.mp ?_
    simp only [List.all_append, hmarkup.1, hmarkup.2, hattributes.all_isChar,
      all_isChar_of_all_isSpace hspace, hcontent.all_isChar, Bool.and_self]

end Wireframe.Xml
