import Wireframe.Drawing.Svg
import Wireframe.Proofs.Drawing.Layout
import Wireframe.Proofs.Xml.Node

/-!
# Drawings are well-formed

Every drawing is a well-formed document (`Svg.wellFormed_ofDocument`), whatever the page says and
whatever the theme holds: texts and colors are escaped, the words of the layout's own need no
escaping (`Layout.plain_ofDocument`), numerals consist of digits, points, signs and letters, and
comments are made safe.

The attributes that an element of a drawing may carry are few, and they are always listed in the
same order, so no name comes twice (`SoundTag.of_sublist`).
-/

namespace Wireframe

/-! ### Numbers -/

namespace Numeral

private theorem isPlain_of_isDigit {c : Char} (h : c.isDigit = true) : Xml.isPlain c = true := by
  have hrange : 48 ≤ c.toNat ∧ c.toNat ≤ 57 := by
    simpa [Char.isDigit, UInt32.le_iff_toNat_le] using h
  have hchar : Xml.isChar c = true := by
    simp only [Xml.isChar, Xml.inRanges, List.any_cons, Bool.or_eq_true, Bool.and_eq_true,
      decide_eq_true_eq]
    omega
  have hmarkup : c ∉ Xml.entities.map (·.2) := by
    intro hmem
    simp only [Xml.entities, List.map_cons, List.map_nil, List.mem_cons, List.not_mem_nil,
      or_false] at hmem
    rcases hmem with rfl | rfl | rfl | rfl | rfl <;> exact absurd hrange (by decide)
  simpa [Xml.isPlain, hchar] using hmarkup

private theorem isPlain_digits (n : ℕ) : (digits n).all Xml.isPlain = true :=
  List.all_eq_true.mpr fun _ hc =>
    isPlain_of_isDigit (Nat.isDigit_of_mem_toDigits (by decide) (by decide) hc)

private theorem isPlain_replicate_zero (n : ℕ) :
    (List.replicate n '0').all Xml.isPlain = true :=
  List.all_eq_true.mpr fun _ hc =>
    List.eq_of_mem_replicate hc ▸ (by decide : Xml.isPlain '0' = true)

/-- A point among digits needs no escaping. -/
private theorem isPlain_withPoint (places : ℕ) {ds : List Char}
    (h : ds.all Xml.isPlain = true) : (withPoint places ds).all Xml.isPlain = true := by
  have hpadded := List.forall_mem_append.mpr
    ⟨List.all_eq_true.mp (isPlain_replicate_zero (places + 1 - ds.length)),
      List.all_eq_true.mp h⟩
  have hpoint : Xml.isPlain '.' = true := by decide
  rw [withPoint, List.all_append, List.all_cons, hpoint, Bool.true_and, Bool.and_eq_true,
    List.all_eq_true, List.all_eq_true]
  exact ⟨fun c hc => hpadded c (List.mem_of_mem_take hc),
    fun c hc => hpadded c (List.mem_of_mem_drop hc)⟩

/-- A sign needs no escaping. -/
private theorem isPlain_signed {negative : Bool} {cs : List Char}
    (h : cs.all Xml.isPlain = true) : (signed negative cs).all Xml.isPlain = true := by
  cases negative with
  | false => exact h
  | true =>
    have hsign : Xml.isPlain '-' = true := by decide
    rw [signed, if_pos rfl, List.all_cons, hsign, h]
    rfl

/-- A numeral is written with digits, a point, a sign and letters, none of which is markup. -/
theorem isPlain_text (numeral : Numeral) : numeral.text.all Xml.isPlain = true := by
  cases numeral with
  | finite negative coefficient exponent =>
    refine isPlain_signed ?_
    rw [positional]
    split_ifs
    · rw [List.all_append, isPlain_digits, isPlain_replicate_zero]
      rfl
    · exact isPlain_withPoint _ (isPlain_digits _)
  | infinite negative => exact isPlain_signed (by decide)
  | nan => decide

end Numeral

/-! ### Tags -/

namespace Xml

/-- Attributes that come from a list of names without repetition, in its order. -/
theorem SoundTag.of_sublist {tag : String} {attributes : List Attribute} (names : List String)
    (hnames : ∀ name ∈ tag :: names, IsName name.toList) (hnodup : names.Nodup)
    (hsublist : (attributes.map (·.name)).Sublist names)
    (hescaped : ∀ a ∈ attributes, Escaped a.value) : SoundTag tag attributes := by
  refine ⟨hnames tag (List.mem_cons_self ..), fun a ha => ⟨?_, hescaped a ha⟩,
    hnodup.sublist hsublist⟩
  exact hnames _ (List.mem_cons_of_mem _ (hsublist.subset (List.mem_map_of_mem ha)))

theorem escaped_ofText (name value : String) : Escaped (Attribute.ofText name value).value :=
  escaped_escape _

end Xml

variable {α : Type} [Scalar α]

namespace Shape

open Xml

/-- A value made from a number is escaped, whatever the number is. -/
theorem escaped_number (name : String) (value : α) : Escaped (number name value).value :=
  .of_isPlain (Numeral.isPlain_text _)

private theorem escaped_word {name value : String} (h : PlainWord value) :
    Escaped (word name value).value := .of_isPlain h

/-- An attribute that may be missing is escaped if it is there. -/
private theorem escaped_ifAny {β : Type} {make : β → Attribute} {value? : Option β}
    (h : ∀ value ∈ value?, Escaped (make value).value) :
    ∀ a ∈ ifAny make value?, Escaped a.value := by
  cases value? with
  | none => exact fun _ ha => absurd ha List.not_mem_nil
  | some value => simpa [ifAny] using h

/-- An attribute that may be missing takes up one name at most. -/
private theorem names_ifAny {β : Type} {make : β → Attribute} {name : String}
    (h : ∀ value, (make value).name = name) (value? : Option β) :
    ((ifAny make value?).map (·.name)).Sublist [name] := by
  cases value? with
  | none => exact List.nil_sublist _
  | some value => simp [ifAny, h]

private theorem escaped_outline (stroke : String) : ∀ a ∈ outline stroke, Escaped a.value := by
  simp only [outline, List.mem_cons, List.not_mem_nil, or_false]
  rintro a (rfl | rfl)
  · exact escaped_ofText _ _
  · exact .of_isPlain (by decide)

/-- A line of text is drawn as a sound node. -/
private theorem sound_textNode {shape : TextShape α} (h : (text shape).Plain) :
    (textNode shape).Sound := by
  obtain ⟨hanchor, hdecoration⟩ := h
  have huppercase : ((if shape.uppercase then [word "text-transform" "uppercase"] else []).map
      (·.name)).Sublist ["text-transform"] := by
    cases shape.uppercase <;> simp [word]
  refine ⟨.of_sublist (["x", "y", "font-size"] ++ ["font-weight"] ++ ["fill", "font-family"] ++
    ["text-anchor"] ++ ["text-decoration"] ++ ["text-transform"]) (by decide) (by decide) ?_ ?_,
    escaped_escape _⟩
  · -- optional attributes may be missing, but the order stays
    simp only [List.map_append]
    refine (((((List.Sublist.refl _).append ?_).append (.refl _)).append ?_).append ?_).append
      huppercase
    · exact names_ifAny (fun _ => by rfl) shape.weight
    · exact names_ifAny (fun _ => by rfl) shape.anchor
    · exact names_ifAny (fun _ => by rfl) shape.decoration
  · simp only [List.forall_mem_append]
    refine ⟨⟨⟨⟨⟨?_, ?_⟩, ?_⟩, ?_⟩, ?_⟩, ?_⟩
    · simp [escaped_number]
    · refine escaped_ifAny fun weight _ => escaped_word ?_
      cases weight <;> decide
    · simp [escaped_ofText]
    · exact escaped_ifAny fun anchor ha => escaped_word (hanchor anchor ha)
    · exact escaped_ifAny fun decoration hd => escaped_word (hdecoration decoration hd)
    · have : PlainWord "uppercase" := by decide
      cases shape.uppercase <;> simp [escaped_word this]

/-- A rectangle is drawn as a sound node. -/
private theorem sound_rectNode {shape : RectShape α} (h : (rect shape).Plain) :
    (rectNode shape).Sound := by
  have houtline : (((shape.stroke.map outline).getD []).map (·.name)).Sublist
      ["stroke", "stroke-width"] := by
    cases shape.stroke <;> simp [outline, word, Attribute.ofText]
  refine .of_sublist (["x", "y", "width", "height"] ++ ["rx"] ++ ["fill"] ++
    ["stroke", "stroke-width"] ++ ["stroke-dasharray"]) (by decide) (by decide) ?_ ?_
  · simp only [List.map_append]
    refine ((((List.Sublist.refl _).append ?_).append (.refl _)).append houtline).append ?_
    · exact names_ifAny (fun _ => by rfl) shape.cornerRadius
    · exact names_ifAny (fun _ => by rfl) shape.dash
  · simp only [List.forall_mem_append]
    refine ⟨⟨⟨⟨?_, ?_⟩, ?_⟩, ?_⟩, ?_⟩
    · simp [escaped_number]
    · exact escaped_ifAny fun radius _ => escaped_number _ radius
    · simp [escaped_ofText]
    · cases shape.stroke with
      | none => simp
      | some stroke => exact escaped_outline stroke
    · exact escaped_ifAny fun dash hd => escaped_word (h dash hd)

mutual

/-- A shape whose words need no escaping is written as a node that can be written. -/
theorem sound_node {shape : Shape α} (h : shape.Plain) : shape.node.Sound := by
  match shape with
  | text _ => exact sound_textNode h
  | rect _ => exact sound_rectNode h
  | line x1 y1 x2 y2 stroke =>
    refine .of_sublist ["x1", "y1", "x2", "y2", "stroke", "stroke-width"] (by decide) (by decide)
      (.refl _) ?_
    exact List.forall_mem_append.mpr ⟨by simp [escaped_number], escaped_outline stroke⟩
  | circle cx cy r fill =>
    refine .of_sublist ["cx", "cy", "r", "fill"] (by decide) (by decide) (.refl _) ?_
    simp [escaped_number, escaped_ofText]
  | group className children =>
    refine ⟨.of_sublist ["class"] (by decide) (by decide) (.refl _) ?_, sound_nodes h.2⟩
    simpa using escaped_word h.1

/-- Shapes with plain words in them are drawn as sound nodes. -/
theorem sound_nodes {shapes : List (Shape α)} (h : AllPlain shapes) :
    Node.AllSound (nodes shapes) := by
  match shapes with
  | [] => trivial
  | shape :: rest => exact ⟨sound_node h.1, sound_nodes h.2⟩

end

end Shape

/-! ### Documents -/

namespace Svg

open Xml

/-- A remark is a sound comment, whatever text it quotes. -/
theorem sound_remark {caption : String} (h : isCaption caption.toList = true) (text : String) :
    (remark caption text).Sound :=
  (safeComment_commentText _).append h

private theorem sound_remarks (metadata : Metadata) :
    ∀ node ∈ remarks metadata, node.Sound := by
  refine List.forall_mem_cons.mpr ⟨sound_remark (by decide) _, ?_⟩
  cases metadata.purpose? with
  | none => exact fun _ hnode => absurd hnode List.not_mem_nil
  | some purpose => simpa using sound_remark (by decide) purpose

/-- The attributes of a drawing have different names and escaped values. -/
private theorem soundTag_canvas (width height : α) : SoundTag "svg" (canvas width height) := by
  have hwords : "0 0 ".toList.all isPlain = true ∧ " ".toList.all isPlain = true := by decide
  refine .of_sublist ["width", "height", "xmlns", "viewBox"] (by decide) (by decide) (.refl _) ?_
  simp only [canvas, List.forall_mem_cons, Shape.escaped_number, true_and]
  refine ⟨.of_isPlain (by decide), .of_isPlain ?_, by simp⟩
  simp only [Shape.word, Scalar.text, String.toList_append, String.toList_ofList,
    List.all_append, hwords, Numeral.isPlain_text, Bool.and_self]

/-- The root of a drawing is a sound node. -/
theorem sound_root (theme : Theme α) (metadata : Metadata) {layout : Layout α}
    (h : Shape.AllPlain layout.shapes) : (root theme metadata layout).Sound := by
  refine ⟨soundTag_canvas _ _, Node.allSound_iff.mpr ?_⟩
  rw [List.cons_append, List.cons_append, List.forall_mem_cons, List.forall_mem_append,
    List.forall_mem_append]
  refine ⟨SafeComment.of_isCaption (by decide), ⟨sound_remarks metadata, ?_⟩,
    Node.allSound_iff.mp (Shape.sound_nodes h)⟩
  simp only [List.forall_mem_cons]
  refine ⟨SafeComment.of_isCaption (by decide), ?_, SafeComment.of_isCaption (by decide), by simp⟩
  refine .of_sublist ["width", "height", "fill"] (by decide) (by decide) (.refl _) ?_
  simp [Shape.escaped_number, escaped_ofText]

/-- **Every drawing is a well-formed document**, whatever the page says and whatever the theme
holds. -/
theorem wellFormed_ofDocument (theme : Theme α) (document : Document) :
    WellFormed (ofDocument theme document).toList := by
  rw [ofDocument, String.toList_ofList]
  exact wellFormed_document (sound_root theme document.metadata
    (Layout.plain_ofDocument theme document))

end Svg

end Wireframe
