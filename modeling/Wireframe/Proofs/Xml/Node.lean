import Mathlib.Data.List.Nodup
import Wireframe.Proofs.Xml.Comment

/-!
# Written nodes

A node whose names are names, whose values and texts are escaped and whose comments are safe
(`Node.Sound`) is written as content of the grammar, and what it is read as is known: its
items (`Node.items`), with the blanks and line feeds of its layout among them
(`Node.isContent_write`). A document with a sound root is well-formed
(`wellFormed_document`), and its root is the one element that the root is read as
(`isDocument_document`).
-/

namespace Wireframe.Xml

/-! ### Sound nodes -/

/-- An attribute as it is read. -/
def Attribute.binding (a : Attribute) : Binding := (a.name.toList, decode a.value)

/-- An attribute that can be written. -/
structure Attribute.Sound (a : Attribute) : Prop where
  name : IsName a.name.toList
  value : Escaped a.value

/-- A start tag that can be written. -/
structure SoundTag (tag : String) (attributes : List Attribute) : Prop where
  name : IsName tag.toList
  sound : ∀ a ∈ attributes, a.Sound
  nodup : (attributes.map (·.name)).Nodup

namespace Node

mutual

/-- A node that can be written. -/
def Sound : Node → Prop
  | leaf tag attributes => SoundTag tag attributes
  | text tag attributes content => SoundTag tag attributes ∧ Escaped content
  | branch tag attributes children => SoundTag tag attributes ∧ AllSound children
  | comment content => SafeComment content

/-- Nodes all of which can be written. -/
def AllSound : List Node → Prop
  | [] => True
  | node :: rest => node.Sound ∧ AllSound rest

end

/-- Nodes are sound if each of them is. -/
theorem allSound_iff {nodes : List Node} : AllSound nodes ↔ ∀ node ∈ nodes, node.Sound := by
  induction nodes with
  | nil => simp [AllSound]
  | cons node rest ih => simp [AllSound, ih]

/-! ### What nodes are read as -/

/-- The blanks in front of a node, as they are read. -/
def blanks (depth : ℕ) : List Item := List.replicate (2 * depth) (.char ' ')

mutual

/-- What a node is read as, with the layout around it. -/
def items (depth : ℕ) : Node → List Item
  | leaf tag attributes =>
    blanks depth ++ [.element tag.toList (attributes.map Attribute.binding) [], .char '\n']
  | text tag attributes content =>
    blanks depth ++ [.element tag.toList (attributes.map Attribute.binding)
      ((decode content).map .char), .char '\n']
  | branch tag attributes children =>
    blanks depth ++ [.element tag.toList (attributes.map Attribute.binding)
      (.char '\n' :: itemsAll (depth + 1) children ++ blanks depth), .char '\n']
  | comment content => blanks depth ++ [.comment (' ' :: content ++ [' ']), .char '\n']

/-- What nodes are read as, one below the other. -/
def itemsAll (depth : ℕ) : List Node → List Item
  | [] => []
  | node :: rest => items depth node ++ itemsAll depth rest

end

/-- The items of nodes follow each other. -/
theorem itemsAll_append (depth : ℕ) (nodes others : List Node) :
    itemsAll depth (nodes ++ others) = itemsAll depth nodes ++ itemsAll depth others := by
  induction nodes with
  | nil => rfl
  | cons node rest ih => rw [List.cons_append, itemsAll, itemsAll, ih, List.append_assoc]

end Node

/-! ### Tags -/

/-- A sound attribute is written as the grammar has it. -/
theorem Attribute.Sound.isAttribute {a : Attribute} (h : a.Sound) :
    IsAttribute a.binding (a.name.toList ++ '=' :: '"' :: a.value ++ ['"']) := by
  have : IsAttribute a.binding (a.name.toList ++ [] ++ '=' :: [] ++ '"' :: a.value ++ ['"']) :=
    .mk h.name rfl rfl (.inl rfl) h.value.isValue
  rwa [List.append_nil, List.append_assoc _ ['='], List.singleton_append] at this

/-- Sound attributes are written as the grammar has them, each behind a blank. -/
theorem isAttributes_writeAll {attributes : List Attribute}
    (h : ∀ a ∈ attributes, a.Sound) :
    IsAttributes (attributes.map Attribute.binding) (Attribute.writeAll attributes) := by
  induction attributes with
  | nil => exact .nil
  | cons a rest ih =>
    obtain ⟨ha, hrest⟩ := List.forall_mem_cons.mp h
    have : IsAttributes (a.binding :: rest.map Attribute.binding)
        ([' '] ++ (a.name.toList ++ '=' :: '"' :: a.value ++ ['"']) ++ Attribute.writeAll rest) :=
      .cons (by simp) (by decide) ha.isAttribute (ih hrest)
    simpa [Attribute.writeAll, Attribute.write] using this

/-- A sound tag is written as the grammar has it. -/
theorem SoundTag.isTag {tag : String} {attributes : List Attribute}
    (h : SoundTag tag attributes) :
    IsTag tag.toList (attributes.map Attribute.binding)
      (tag.toList ++ Attribute.writeAll attributes) := by
  have hnodup : ((attributes.map Attribute.binding).map (·.1)).Nodup := by
    have hnames : (attributes.map Attribute.binding).map (·.1) =
        (attributes.map (·.name)).map String.toList := by
      simp [Attribute.binding]
    rw [hnames]
    exact h.nodup.map fun _ _ heq => String.toList_inj.mp heq
  have : IsTag tag.toList (attributes.map Attribute.binding)
      (tag.toList ++ Attribute.writeAll attributes ++ []) :=
    .mk h.name (isAttributes_writeAll h.sound) hnodup rfl
  rwa [List.append_nil] at this

/-! ### Content -/

private theorem isContent_layout {c : Char} (hc : c = ' ' ∨ c = '\n') {items : List Item}
    {cs : List Char} (h : IsContent items cs) : IsContent (.char c :: items) (c :: cs) := by
  have hunit : IsUnit c [c] := by
    rcases hc with rfl | rfl <;> exact .plain (by decide) (by decide) (by decide)
  refine .char hunit ?_ h
  rintro ⟨after, hstart⟩
  injection hstart with hc'
  subst hc'
  exact absurd hc (by decide)

private theorem isContent_indent (depth : ℕ) {items : List Item} {cs : List Char}
    (h : IsContent items cs) :
    IsContent (Node.blanks depth ++ items) (Node.indent depth ++ cs) := by
  rw [Node.blanks, Node.indent]
  generalize 2 * depth = n
  induction n with
  | zero => exact h
  | succ n ih =>
    simp only [List.replicate_succ, List.cons_append]
    exact isContent_layout (.inl rfl) ih

namespace Node

mutual

/-- **A sound node is written as content of the grammar**, in front of any other content. -/
theorem isContent_write {node : Node} (hnode : node.Sound) (depth : ℕ) {items : List Item}
    {cs : List Char} (h : IsContent items cs) :
    IsContent (node.items depth ++ items) (node.write depth ++ cs) := by
  -- the line feed behind the node and the blanks in front of it are content, too
  have hline := isContent_layout (.inr rfl) h
  have hspace : ([] : List Char).all isSpace = true := rfl
  match node with
  | leaf tag attributes =>
    have htag : SoundTag tag attributes := hnode
    have := isContent_indent depth (.empty htag.isTag hline)
    simpa [Node.items, write, openTag] using this
  | text tag attributes content =>
    have := isContent_indent depth (.element hnode.1.isTag hnode.2.isContent hspace hline)
    simpa [Node.items, write, openTag, closeTag] using this
  | branch tag attributes children =>
    have hinner := isContent_layout (.inr rfl)
      (isContent_writeAll hnode.2 (depth + 1) (isContent_indent depth .nil))
    have := isContent_indent depth (.element hnode.1.isTag hinner hspace hline)
    simpa [Node.items, write, openTag, closeTag] using this
  | comment content =>
    have := isContent_indent depth (.comment (SafeComment.isComment hnode) hline)
    simpa [Node.items, write] using this

/-- Sound nodes are written as content in front of any other: the induction over the nodes. -/
theorem isContent_writeAll {nodes : List Node} (hnodes : AllSound nodes) (depth : ℕ)
    {items : List Item} {cs : List Char} (h : IsContent items cs) :
    IsContent (itemsAll depth nodes ++ items) (writeAll depth nodes ++ cs) := by
  match nodes with
  | [] => simpa [itemsAll, writeAll] using h
  | node :: rest =>
    have := isContent_write hnodes.1 depth (isContent_writeAll hnodes.2 depth h)
    simpa [itemsAll, writeAll] using this

end

end Node

/-! ### Ampersands -/

private theorem IsName.namesEntities {name : List Char} (h : IsName name) :
    NamesEntities name :=
  namesEntities_of_not_mem fun hmem => absurd (h.2 _ hmem) (by decide)

private theorem namesEntities_attributes {attributes : List Attribute}
    (h : ∀ a ∈ attributes, a.Sound) : NamesEntities (Attribute.writeAll attributes) := by
  induction attributes with
  | nil => exact namesEntities_nil
  | cons a rest ih =>
    obtain ⟨ha, hrest⟩ := List.forall_mem_cons.mp h
    have hquote : NamesEntities ['"'] := namesEntities_of_not_mem (by decide)
    have hequals : NamesEntities ['=', '"'] := namesEntities_of_not_mem (by decide)
    have hstart := (ha.name.namesEntities.append hequals).append
      (ha.value.namesEntities.append hquote)
    rw [Attribute.writeAll, List.flatMap_cons, ← Attribute.writeAll]
    refine NamesEntities.append ?_ (ih hrest)
    simpa [Attribute.write] using namesEntities_cons_of_ne (c := ' ') (by decide) hstart

namespace Node

private theorem namesEntities_indent (depth : ℕ) : NamesEntities (indent depth) :=
  namesEntities_of_not_mem fun hmem => absurd (List.eq_of_mem_replicate hmem) (by decide)

private theorem namesEntities_openTag {tag : String} {attributes : List Attribute}
    (h : SoundTag tag attributes) : NamesEntities (openTag tag attributes) :=
  namesEntities_cons_of_ne (by decide)
    (h.name.namesEntities.append (namesEntities_attributes h.sound))

private theorem namesEntities_closeTag {tag : String} {attributes : List Attribute}
    (h : SoundTag tag attributes) : NamesEntities (closeTag tag ++ ['\n']) := by
  have hend : NamesEntities ['>', '\n'] := namesEntities_of_not_mem (by decide)
  have := namesEntities_cons_of_ne (c := '<') (by decide)
    (namesEntities_cons_of_ne (c := '/') (by decide) (h.name.namesEntities.append hend))
  simpa [closeTag] using this

mutual

/-- A sound node opens no other references than entities, at any depth. -/
theorem namesEntities_write {node : Node} (hnode : node.Sound) (depth : ℕ) :
    NamesEntities (node.write depth) := by
  have hindent := namesEntities_indent depth
  -- the markup has no ampersand, so only texts and values count
  match node with
  | leaf tag attributes =>
    have htag := namesEntities_openTag (show SoundTag tag attributes from hnode)
    exact (hindent.append htag).append (namesEntities_of_not_mem (by decide))
  | text tag attributes content =>
    have hopen := namesEntities_openTag hnode.1
    have hcontent := namesEntities_cons_of_ne (c := '>') (by decide) hnode.2.namesEntities
    rw [write, List.append_assoc _ (closeTag tag)]
    exact ((hindent.append hopen).append hcontent).append (namesEntities_closeTag hnode.1)
  | branch tag attributes children =>
    have hopen := namesEntities_openTag hnode.1
    have hline := namesEntities_cons_of_ne (c := '\n') (by decide)
      (namesEntities_writeAll hnode.2 (depth + 1))
    have hchildren := namesEntities_cons_of_ne (c := '>') (by decide) hline
    rw [write, List.append_assoc _ (closeTag tag)]
    exact (((hindent.append hopen).append hchildren).append hindent).append
      (namesEntities_closeTag hnode.1)
  | comment content =>
    have hcontent : SafeComment content := hnode
    have hopen : NamesEntities "<!-- ".toList := namesEntities_of_not_mem (by decide)
    have hclose : NamesEntities " -->\n".toList := namesEntities_of_not_mem (by decide)
    exact ((hindent.append hopen).append hcontent.namesEntities).append hclose

/-- Sound nodes one after another open no other references than entities. -/
theorem namesEntities_writeAll {nodes : List Node} (hnodes : AllSound nodes) (depth : ℕ) :
    NamesEntities (writeAll depth nodes) := by
  match nodes with
  | [] => exact namesEntities_nil
  | _ :: _ =>
    exact (namesEntities_write hnodes.1 depth).append (namesEntities_writeAll hnodes.2 depth)

end

end Node

/-! ### Documents -/

private theorem isDeclaration :
    IsDeclaration "<?xml version=\"1.0\" encoding=\"UTF-8\"?>".toList := by
  have hsound : ∀ a ∈ [Attribute.mk "version" "1.0".toList, ⟨"encoding", "UTF-8".toList⟩],
      a.Sound := by
    simp only [List.mem_cons, List.not_mem_nil, or_false]
    rintro a (rfl | rfl)
    · exact ⟨by decide, .of_isPlain (by decide)⟩
    · exact ⟨by decide, .of_isPlain (by decide)⟩
  have hspace : ([] : List Char).all isSpace = true := rfl
  exact IsDeclaration.mk (by decide) (isAttributes_writeAll hsound) hspace

/-- The element that a document is read as, if its root is sound. -/
theorem isDocument_document {tag : String} {attributes : List Attribute} {children : List Node}
    (h : (Node.branch tag attributes children).Sound) :
    IsDocument
      (.element tag.toList (attributes.map Attribute.binding)
        (.char '\n' :: Node.itemsAll 1 children))
      (document (.branch tag attributes children)) := by
  have hcontent := isContent_layout (.inr rfl) (Node.isContent_write h 0 .nil)
  have hitems : [Item.char '\n'].all Item.isMisc = true := rfl
  have hlayout : Node.items 0 (.branch tag attributes children) =
      [.element tag.toList (attributes.map Attribute.binding)
        (.char '\n' :: Node.itemsAll 1 children), .char '\n'] := by
    simp [Node.items, Node.blanks]
  have hdeclaration :
      declaration = "<?xml version=\"1.0\" encoding=\"UTF-8\"?>".toList ++ ['\n'] := by decide
  rw [List.append_nil, List.append_nil, hlayout] at hcontent
  rw [document, hdeclaration, List.append_assoc]
  exact .mk isDeclaration rfl hitems hitems hcontent

/-- **A document with a sound root is well-formed.** -/
theorem wellFormed_document {tag : String} {attributes : List Attribute} {children : List Node}
    (h : (Node.branch tag attributes children).Sound) :
    WellFormed (document (.branch tag attributes children)) := by
  refine ⟨(isDocument_document h).isChar, ⟨_, isDocument_document h⟩, ?_⟩
  have hdeclaration : NamesEntities declaration := namesEntities_of_not_mem (by decide)
  exact hdeclaration.append (Node.namesEntities_write h 0)

end Wireframe.Xml
