import Wireframe.Proofs.Xml.Exactness
import Wireframe.Proofs.Xml.Node

/-!
# The comments of a document

What stands in the comments of a document, in document order (`Item.comments`). Nothing but a
comment node is read as a comment: texts, values and the blanks of the layout hold none. A document
is read back with the comments that its nodes are, each between two spaces
(`Node.comments_document`).
-/

namespace Wireframe.Xml

/-! ### The comments of content -/

namespace Item

mutual

/-- What stands in the comments of an item, in document order. -/
def comments : Item → List (List Char)
  | char _ => []
  | comment content => [content]
  | element _ _ content => commentsAll content

/-- What stands in the comments of some content. -/
def commentsAll : List Item → List (List Char)
  | [] => []
  | item :: rest => item.comments ++ commentsAll rest

end

/-- The comments of items are those of each of them, in their order. -/
theorem commentsAll_eq_flatMap (items : List Item) :
    commentsAll items = items.flatMap comments := by
  induction items with
  | nil => rfl
  | cons item rest ih => rw [commentsAll, ih, List.flatMap_cons]

theorem commentsAll_append (items others : List Item) :
    commentsAll (items ++ others) = commentsAll items ++ commentsAll others := by
  simp only [commentsAll_eq_flatMap, List.flatMap_append]

theorem commentsAll_map_char (cs : List Char) : commentsAll (cs.map .char) = [] := by
  rw [commentsAll_eq_flatMap, List.flatMap_map]
  exact List.flatMap_eq_nil_iff.mpr fun _ _ => rfl

end Item

/-! ### The comments of written nodes -/

namespace Node

mutual

/-- What stands in the comments that a node is or holds, with the spaces around it. -/
def comments : Node → List (List Char)
  | leaf .. => []
  | text .. => []
  | branch _ _ children => commentsAll children
  | comment content => [' ' :: content ++ [' ']]

/-- What stands in the comments of nodes. -/
def commentsAll : List Node → List (List Char)
  | [] => []
  | node :: rest => node.comments ++ commentsAll rest

end

theorem commentsAll_append (nodes others : List Node) :
    commentsAll (nodes ++ others) = commentsAll nodes ++ commentsAll others := by
  induction nodes with
  | nil => rfl
  | cons node rest ih => rw [List.cons_append, commentsAll, commentsAll, ih, List.append_assoc]

theorem commentsAll_blanks (depth : ℕ) : Item.commentsAll (blanks depth) = [] := by
  rw [blanks, ← List.map_replicate, Item.commentsAll_map_char]

mutual

/-- A node is read as its comments, and no others. -/
theorem commentsAll_items (depth : ℕ) (node : Node) :
    Item.commentsAll (items depth node) = node.comments := by
  match node with
  | leaf .. | comment _ =>
    simp [items, comments, Item.commentsAll_append, commentsAll_blanks, Item.commentsAll,
      Item.comments]
  | text _ _ content =>
    simp [items, comments, Item.commentsAll_append, commentsAll_blanks, Item.commentsAll,
      Item.comments, Item.commentsAll_map_char]
  | branch _ _ children =>
    simp [items, comments, Item.commentsAll_append, commentsAll_blanks, Item.commentsAll,
      Item.comments, commentsAll_itemsAll (depth + 1) children]

/-- The comments that are read are those of the nodes that were written. -/
theorem commentsAll_itemsAll (depth : ℕ) (nodes : List Node) :
    Item.commentsAll (itemsAll depth nodes) = commentsAll nodes := by
  match nodes with
  | [] => rfl
  | node :: rest =>
    rw [itemsAll, Item.commentsAll_append, commentsAll_items depth node,
      commentsAll_itemsAll depth rest, commentsAll]

end

/-- The comments of a document are those of its root. -/
theorem comments_document {name : String} {attributes : List Attribute} {children : List Node}
    (hroot : (branch name attributes children).Sound) :
    (parse? (document (branch name attributes children))).map Item.comments =
      some (commentsAll children) := by
  rw [parse?_eq_some_iff.mpr (isDocument_document hroot), Option.map_some, Item.comments,
    Item.commentsAll, Item.comments, List.nil_append, commentsAll_itemsAll]

end Node

end Wireframe.Xml
