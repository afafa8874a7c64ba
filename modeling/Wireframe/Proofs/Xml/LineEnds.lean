import Wireframe.Proofs.Xml.Node

/-!
# Line ends in XML

Before a document is read, its line ends are made alike: a carriage return and the line feed behind
it are one line feed, and so is a carriage return alone (section 2.11 of XML 1.0). The grammar takes
characters as they stand; `read?` is what a reader finds in a file, by the grammar once the line
ends are alike. What a reader does besides to the white space in attribute values (section 3.3.3)
is left out, for it bears on values only.

In the documents that are written here, making the line ends alike is the same as making them alike
in each value, text and comment (`Node.unifyLineEnds_document`), since none of these has a line feed
right behind it. What stays is escaped or safe as before, so the document is read as its nodes with
their line ends alike.
-/

namespace Wireframe.Xml

/-- A text with its line ends made alike: a carriage return in front of a line feed is left out, and
any other one becomes a line feed. -/
def unifyLineEnds : List Char → List Char
  | [] => []
  | c :: cs =>
    if c = '\r' then
      if cs.head? = some '\n' then unifyLineEnds cs else '\n' :: unifyLineEnds cs
    else c :: unifyLineEnds cs

/-- The root of the document that a file holds, as a reader finds it: by the grammar, after the line
ends have been made alike. -/
def read? (cs : List Char) : Option Item := parse? (unifyLineEnds cs)

/-- A reader finds a root iff the grammar derives the text with its line ends alike. -/
theorem read?_eq_some_iff {cs : List Char} {root : Item} :
    read? cs = some root ↔ IsDocument root (unifyLineEnds cs) :=
  parse?_eq_some_iff

example : unifyLineEnds "a\r\nb\rc\r\r\n".toList = "a\nb\nc\n\n".toList := by decide

/-! ### Character by character -/

theorem unifyLineEnds_cons_of_ne {c : Char} (h : c ≠ '\r') (cs : List Char) :
    unifyLineEnds (c :: cs) = c :: unifyLineEnds cs := by
  rw [unifyLineEnds, if_neg h]

/-- A carriage return leaves no trace but a line feed. -/
theorem mem_of_mem_unifyLineEnds {c : Char} {cs : List Char} (h : c ∈ unifyLineEnds cs) :
    c = '\n' ∨ c ∈ cs := by
  induction cs with
  | nil => exact .inr h
  | cons d cs ih =>
    rw [unifyLineEnds] at h
    rw [List.mem_cons]
    split_ifs at h with hreturn hfeed
    · exact (ih h).imp_right .inr
    · rw [List.mem_cons] at h
      exact h.elim .inl fun h => (ih h).imp_right .inr
    · rw [List.mem_cons] at h
      exact h.elim (.inr ∘ .inl) fun h => (ih h).imp_right .inr

/-- What a text begins with stays, unless it is a carriage return. -/
theorem head?_unifyLineEnds (cs : List Char) :
    (unifyLineEnds cs).head? = if cs.head? = some '\r' then some '\n' else cs.head? := by
  induction cs with
  | nil => rfl
  | cons c cs ih =>
    rw [List.head?_cons, unifyLineEnds]
    by_cases hreturn : c = '\r'
    · subst hreturn
      rw [if_pos rfl, if_pos rfl]
      by_cases hfeed : cs.head? = some '\n'
      · rw [if_pos hfeed, ih, hfeed, if_neg (by decide)]
      · rw [if_neg hfeed, List.head?_cons]
    · rw [if_neg hreturn, List.head?_cons, if_neg (by simpa using hreturn)]

/-! ### Piece by piece -/

/-- Whether the line ends of a text are made alike in the same way whatever follows it. -/
def Unifies (cs ds : List Char) : Prop :=
  ∀ rest, unifyLineEnds (cs ++ rest) = ds ++ unifyLineEnds rest

namespace Unifies

/-- A whole text has nothing behind it. -/
theorem eq {cs ds : List Char} (h : Unifies cs ds) : unifyLineEnds cs = ds := by
  have := h []
  rwa [List.append_nil, unifyLineEnds, List.append_nil] at this

theorem append {cs cs' ds ds' : List Char} (h : Unifies cs ds) (h' : Unifies cs' ds') :
    Unifies (cs ++ cs') (ds ++ ds') := fun rest => by
  rw [List.append_assoc, h, h', List.append_assoc]

/-- Without a carriage return a text stays as it is. -/
theorem of_not_mem {cs : List Char} (h : '\r' ∉ cs) : Unifies cs cs := by
  intro rest
  induction cs with
  | nil => rfl
  | cons c cs ih =>
    rw [List.mem_cons, not_or] at h
    rw [List.cons_append, unifyLineEnds_cons_of_ne (Ne.symm h.1), ih h.2, List.cons_append]

/-- A character that is no part of a line end closes off what stands in front of it. -/
theorem concat {d : Char} (hreturn : d ≠ '\r') (hfeed : d ≠ '\n') (cs : List Char) :
    Unifies (cs ++ [d]) (unifyLineEnds cs ++ [d]) := by
  intro rest
  rw [List.append_assoc, List.append_assoc, List.singleton_append, List.singleton_append]
  induction cs with
  | nil => exact unifyLineEnds_cons_of_ne hreturn rest
  | cons c cs ih =>
    -- behind the character there is a line feed in the whole text iff there is one in the piece
    have hnext : (cs ++ d :: rest).head? = some '\n' ↔ cs.head? = some '\n' := by
      cases cs <;> simp [hfeed]
    rw [List.cons_append, unifyLineEnds, unifyLineEnds, ih]
    simp only [hnext]
    split_ifs <;> rfl

end Unifies

/-! ### Escaped text and comments -/

/-- Between any two characters of an entity there is no line end. -/
theorem unifies_entity {name : List Char} {c : Char} (h : (name, c) ∈ entities) :
    Unifies ('&' :: name ++ [';']) ('&' :: name ++ [';']) := by
  have hname : '\r' ∉ name := not_mem_of_mem_entities h (by decide)
  exact .of_not_mem (by simp [hname])

namespace Escaped

/-- Making line ends alike keeps text escaped. -/
theorem unifyLineEnds {cs : List Char} (h : Escaped cs) : Escaped (unifyLineEnds cs) := by
  induction h with
  | nil => exact .nil
  | plain hc _ ih =>
    rw [Xml.unifyLineEnds]
    split_ifs
    · exact ih
    · exact .plain (by decide) ih
    · exact .plain hc ih
  | @entity name cs c hname _ ih =>
    have hsplit : '&' :: name ++ ';' :: cs = ('&' :: name ++ [';']) ++ cs := by simp
    rw [hsplit, unifies_entity hname cs, List.append_assoc]
    exact .entity hname ih

/-- Text begins with a line feed iff it is written with one in front. -/
theorem head?_decode {cs : List Char} (h : Escaped cs) :
    (decode cs).head? = some '\n' ↔ cs.head? = some '\n' := by
  cases h with
  | nil => rfl
  | plain hc _ => rw [decode_cons_of_ne (not_mem_markup_of_isPlain hc).2.1]; rfl
  | @entity name cs c hname _ =>
    have hfeed : c ≠ '\n' := by
      rintro rfl
      exact absurd hname (by simp [entities])
    rw [List.cons_append, decode_entity hname]
    simp [hfeed]

/-- No line end is written as an entity, so it does not matter whether the line ends are made alike
before the entities are replaced or after. -/
theorem decode_unifyLineEnds {cs : List Char} (h : Escaped cs) :
    decode (Xml.unifyLineEnds cs) = Xml.unifyLineEnds (decode cs) := by
  induction h with
  | nil => rfl
  | @plain c cs hc hcs ih =>
    have hamp := (not_mem_markup_of_isPlain hc).2.1
    rw [decode_cons_of_ne hamp, Xml.unifyLineEnds, Xml.unifyLineEnds]
    simp only [hcs.head?_decode]
    split_ifs
    · exact ih
    · rw [decode_cons_of_ne (by decide), ih]
    · rw [decode_cons_of_ne hamp, ih]
  | @entity name cs c hname _ ih =>
    have hreturn : c ≠ '\r' := by
      rintro rfl
      exact absurd hname (by simp [entities])
    have hsplit (ds : List Char) : '&' :: name ++ [';'] ++ ds = '&' :: (name ++ ';' :: ds) := by
      simp
    rw [List.cons_append, ← hsplit, unifies_entity hname cs, hsplit, hsplit, decode_entity hname,
      decode_entity hname, ih, unifyLineEnds_cons_of_ne hreturn]

end Escaped

private theorem infix_of_infix_unifyLineEnds {cs : List Char}
    (h : ['-', '-'] <:+: unifyLineEnds cs) : ['-', '-'] <:+: cs := by
  induction cs with
  | nil => exact h
  | cons c cs ih =>
    rw [unifyLineEnds] at h
    split_ifs at h with hreturn hfeed
    · exact (ih h).trans (List.suffix_cons c cs).isInfix
    · rcases List.infix_cons_iff.mp h with ⟨_, hstart⟩ | hinfix
      · simp at hstart
      · exact (ih hinfix).trans (List.suffix_cons c cs).isInfix
    · rcases List.infix_cons_iff.mp h with ⟨after, hstart⟩ | hinfix
      · obtain ⟨rfl, hcs⟩ := List.cons_eq_cons.mp hstart
        -- the second hyphen was there before, because no line end becomes a hyphen
        have hhead := head?_unifyLineEnds cs
        rw [← hcs] at hhead
        split_ifs at hhead with hcr
        · exact absurd hhead (by simp)
        · obtain ⟨rest, rfl⟩ := List.head?_eq_some_iff.mp hhead.symm
          exact ⟨[], rest, rfl⟩
      · exact (ih hinfix).trans (List.suffix_cons c cs).isInfix

/-- Unifying line ends leaves the references whole. -/
theorem NamesEntities.unifyLineEnds {cs : List Char} (h : NamesEntities cs) :
    NamesEntities (unifyLineEnds cs) := by
  induction cs with
  | nil => exact h
  | cons c cs ih =>
    have htail : NamesEntities (Xml.unifyLineEnds cs) :=
      ih fun after ha => h after (ha.trans (by simp))
    rw [Xml.unifyLineEnds]
    split_ifs
    · exact htail
    · exact namesEntities_cons_of_ne (by decide) htail
    · refine namesEntities_cons (fun hamp => ?_) htail
      obtain ⟨e, he, rest, rfl⟩ := h cs (by simp [hamp])
      have hname : '\r' ∉ e.1 := not_mem_of_mem_entities he (by decide)
      have hentity : Unifies (e.1 ++ [';']) (e.1 ++ [';']) := .of_not_mem (by simp [hname])
      exact ⟨e, he, hentity rest ▸ List.prefix_append _ _⟩

/-- Making line ends alike keeps the content of a comment safe. -/
theorem SafeComment.unifyLineEnds {cs : List Char} (h : SafeComment cs) :
    SafeComment (unifyLineEnds cs) where
  isChar c hc := by
    rcases mem_of_mem_unifyLineEnds hc with rfl | hc
    · decide
    · exact h.isChar c hc
  not_double hinfix := h.not_double (infix_of_infix_unifyLineEnds hinfix)
  namesEntities := h.namesEntities.unifyLineEnds

/-! ### Nodes -/

/-- An attribute with the line ends in its value made alike. -/
def Attribute.unified (a : Attribute) : Attribute := { a with value := unifyLineEnds a.value }

namespace Node

mutual

/-- A node with the line ends in its values, texts and comments made alike. -/
def unified : Node → Node
  | leaf tag attributes => leaf tag (attributes.map Attribute.unified)
  | text tag attributes content =>
    text tag (attributes.map Attribute.unified) (unifyLineEnds content)
  | branch tag attributes children =>
    branch tag (attributes.map Attribute.unified) (unifiedAll children)
  | comment content => comment (unifyLineEnds content)

/-- Nodes with their line ends made alike. -/
def unifiedAll : List Node → List Node
  | [] => []
  | node :: rest => node.unified :: unifiedAll rest

end

theorem unifiedAll_append (nodes others : List Node) :
    unifiedAll (nodes ++ others) = unifiedAll nodes ++ unifiedAll others := by
  induction nodes with
  | nil => rfl
  | cons node rest ih => rw [List.cons_append, unifiedAll, unifiedAll, ih, List.cons_append]

end Node

/-- A sound tag stays sound. -/
theorem SoundTag.unified {tag : String} {attributes : List Attribute}
    (h : SoundTag tag attributes) : SoundTag tag (attributes.map Attribute.unified) where
  name := h.name
  sound a ha := by
    obtain ⟨b, hb, rfl⟩ := List.mem_map.mp ha
    exact ⟨(h.sound b hb).name, (h.sound b hb).value.unifyLineEnds⟩
  nodup := by
    rw [List.map_map]
    exact h.nodup

namespace Node

mutual

/-- Making line ends alike keeps a node sound. -/
theorem Sound.unified {node : Node} (h : node.Sound) : node.unified.Sound := by
  match node with
  | leaf tag attributes => exact SoundTag.unified h
  | text tag attributes content => exact ⟨h.1.unified, h.2.unifyLineEnds⟩
  | branch tag attributes children => exact ⟨h.1.unified, AllSound.unified h.2⟩
  | comment content => exact SafeComment.unifyLineEnds h

/-- Sound nodes stay sound. -/
theorem AllSound.unified {nodes : List Node} (h : AllSound nodes) :
    AllSound (unifiedAll nodes) := by
  match nodes with
  | [] => trivial
  | _ :: _ => exact ⟨Sound.unified h.1, AllSound.unified h.2⟩

end

/-! ### Nodes as they are written -/

private theorem not_mem_of_isName {name : List Char} (h : IsName name) : '\r' ∉ name :=
  fun hmem => absurd (h.2 _ hmem) (by decide)

/-- Attributes are read with the line ends in their values unified. -/
theorem unifies_writeAll_attributes {attributes : List Attribute} (h : ∀ a ∈ attributes, a.Sound) :
    Unifies (Attribute.writeAll attributes)
      (Attribute.writeAll (attributes.map Attribute.unified)) := by
  induction attributes with
  | nil => exact .of_not_mem List.not_mem_nil
  | cons a rest ih =>
    obtain ⟨ha, hrest⟩ := List.forall_mem_cons.mp h
    have hname : '\r' ∉ ' ' :: a.name.toList ++ ['=', '"'] := by
      simp [not_mem_of_isName ha.name]
    -- the closing quote keeps the value apart from what follows
    have hvalue := Unifies.concat (d := '"') (by decide) (by decide) a.value
    have hwrite := ((Unifies.of_not_mem hname).append hvalue).append (ih hrest)
    simpa [Attribute.writeAll, Attribute.write, Attribute.unified] using hwrite

theorem unifies_openTag {tag : String} {attributes : List Attribute} (h : SoundTag tag attributes) :
    Unifies (openTag tag attributes) (openTag tag (attributes.map Attribute.unified)) := by
  have htag : '\r' ∉ '<' :: tag.toList := by simp [not_mem_of_isName h.name]
  exact (Unifies.of_not_mem htag).append (unifies_writeAll_attributes h.sound)

private theorem unifies_indent (depth : ℕ) : Unifies (indent depth) (indent depth) :=
  .of_not_mem fun hmem => absurd (List.eq_of_mem_replicate hmem) (by decide)

mutual

/-- The line ends of a written node are those in its values, texts and comments. -/
theorem unifies_write {node : Node} (hnode : node.Sound) (depth : ℕ) :
    Unifies (node.write depth) (node.unified.write depth) := by
  have hindent := unifies_indent depth
  match node with
  | leaf tag attributes =>
    have htag := unifies_openTag (show SoundTag tag attributes from hnode)
    exact (hindent.append htag).append (.of_not_mem (by decide))
  | text tag attributes content =>
    have hopen := hindent.append (unifies_openTag hnode.1)
    -- the end tag keeps the text apart from the line feed behind it
    have hcontent := Unifies.concat (d := '<') (by decide) (by decide) content
    have hclose : '\r' ∉ '/' :: tag.toList ++ ['>', '\n'] := by
      simp [not_mem_of_isName hnode.1.name]
    have hend : Unifies ['>'] ['>'] := .of_not_mem (by decide)
    have hwrite := ((hopen.append hend).append hcontent).append (.of_not_mem hclose)
    simpa [write, unified, closeTag] using hwrite
  | branch tag attributes children =>
    have hopen := hindent.append (unifies_openTag hnode.1)
    have hchildren := unifies_writeAll hnode.2 (depth + 1)
    have hclose : '\r' ∉ '<' :: '/' :: tag.toList ++ ['>', '\n'] := by
      simp [not_mem_of_isName hnode.1.name]
    have hend : Unifies ['>', '\n'] ['>', '\n'] := .of_not_mem (by decide)
    have hwrite := (((hopen.append hend).append hchildren).append hindent).append
      (.of_not_mem hclose)
    simpa [write, unified, closeTag] using hwrite
  | comment content =>
    have hcontent := Unifies.concat (d := ' ') (by decide) (by decide) content
    have hopen : Unifies "<!-- ".toList "<!-- ".toList := .of_not_mem (by decide)
    have hclose : Unifies "-->\n".toList "-->\n".toList := .of_not_mem (by decide)
    have hwrite := ((hindent.append hopen).append hcontent).append hclose
    simpa [write, unified] using hwrite

/-- Sound nodes are read with the line ends in their texts unified, one after another. -/
theorem unifies_writeAll {nodes : List Node} (hnodes : AllSound nodes) (depth : ℕ) :
    Unifies (writeAll depth nodes) (writeAll depth (unifiedAll nodes)) := by
  match nodes with
  | [] => exact .of_not_mem List.not_mem_nil
  | _ :: _ => exact (unifies_write hnodes.1 depth).append (unifies_writeAll hnodes.2 depth)

end

/-- **The line ends of a document** are those in the values, texts and comments of its nodes. -/
theorem unifyLineEnds_document {root : Node} (hroot : root.Sound) :
    unifyLineEnds (document root) = document root.unified :=
  ((Unifies.of_not_mem (by decide)).append (unifies_write hroot 0)).eq

end Node

end Wireframe.Xml
