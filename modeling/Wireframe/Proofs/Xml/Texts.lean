import Wireframe.Proofs.Xml.LineEnds

/-!
# The texts of a document

What stands in the elements with a given tag, in document order (`Item.textsOf`). Of a written
node these are the decoded contents of its text nodes with that tag; tags, attributes, comments
and the blanks of the layout hold none. A document is read back as the texts of the nodes in its
root, once their line ends are alike (`Node.textsOf_document`).
-/

namespace Wireframe.Xml

/-! ### The texts of content -/

namespace Item

/-- A character, unless the item is something else. -/
def char? : Item → Option Char
  | char c => some c
  | _ => none

mutual

/-- What stands in the elements with a given tag, in document order. -/
def textsOf (tag : List Char) : Item → List (List Char)
  | char _ => []
  | comment _ => []
  | element name _ content =>
    (if name = tag then [content.filterMap char?] else []) ++ textsOfAll tag content

/-- What stands in the elements with a given tag in some content. -/
def textsOfAll (tag : List Char) : List Item → List (List Char)
  | [] => []
  | item :: rest => item.textsOf tag ++ textsOfAll tag rest

end

variable {tag : List Char}

theorem textsOfAll_append (items others : List Item) :
    textsOfAll tag (items ++ others) = textsOfAll tag items ++ textsOfAll tag others := by
  induction items with
  | nil => rfl
  | cons item rest ih => rw [List.cons_append, textsOfAll, textsOfAll, ih, List.append_assoc]

theorem textsOfAll_map_char (cs : List Char) : textsOfAll tag (cs.map .char) = [] := by
  induction cs with
  | nil => rfl
  | cons c cs ih => rw [List.map_cons, textsOfAll, ih]; rfl

end Item

/-! ### The texts of written nodes -/

namespace Node

/-- The layout around a node holds no texts. -/
theorem textsOfAll_blanks (tag : List Char) (depth : ℕ) :
    Item.textsOfAll tag (blanks depth) = [] := by
  rw [blanks, ← List.map_replicate, Item.textsOfAll_map_char]

theorem textsOfAll_items_leaf {tag : List Char} {name : String} (h : name.toList ≠ tag)
    (attributes : List Attribute) (depth : ℕ) :
    Item.textsOfAll tag (items depth (leaf name attributes)) = [] := by
  simp [items, Item.textsOfAll_append, textsOfAll_blanks, Item.textsOfAll, Item.textsOf, h]

/-- A text is read back from the element that holds it. -/
theorem textsOfAll_items_text {name : String} (attributes : List Attribute)
    (content : List Char) (depth : ℕ) :
    Item.textsOfAll name.toList (items depth (text name attributes content)) =
      [decode content] := by
  simp [items, Item.textsOfAll_append, textsOfAll_blanks, Item.textsOfAll, Item.textsOf,
    Item.textsOfAll_map_char, Item.char?, Function.comp_def]

/-- An element with another name hands on the texts of its children. -/
theorem textsOfAll_items_branch {tag : List Char} {name : String} (h : name.toList ≠ tag)
    (attributes : List Attribute) (children : List Node) (depth : ℕ) :
    Item.textsOfAll tag (items depth (branch name attributes children)) =
      Item.textsOfAll tag (itemsAll (depth + 1) children) := by
  simp [items, Item.textsOfAll_append, textsOfAll_blanks, Item.textsOfAll, Item.textsOf, h]

theorem textsOfAll_items_comment (tag content : List Char) (depth : ℕ) :
    Item.textsOfAll tag (items depth (comment content)) = [] := by
  simp [items, Item.textsOfAll_append, textsOfAll_blanks, Item.textsOfAll, Item.textsOf]

/-- A reader finds in a document the texts of what is in its root, with their line ends made alike,
unless the root has the tag itself. -/
theorem textsOf_document {tag : List Char} {name : String} (h : name.toList ≠ tag)
    {attributes : List Attribute} {children : List Node}
    (hroot : (branch name attributes children).Sound) :
    (read? (document (branch name attributes children))).map (Item.textsOf tag) =
      some (Item.textsOfAll tag (itemsAll 1 (unifiedAll children))) := by
  have hline := unifyLineEnds_document hroot
  rw [unified] at hline
  have hread := isDocument_document hroot.unified
  rw [← hline, ← read?_eq_some_iff] at hread
  rw [hread, Option.map_some, Item.textsOf, if_neg h]
  rfl

end Node

end Wireframe.Xml
