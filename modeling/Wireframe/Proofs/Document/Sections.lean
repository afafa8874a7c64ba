import Wireframe.Document.Reading

/-!
# What a text says as a document

Reading keeps an open landmark, a list of finished elements and a map of metadata while it goes
through the lines. What comes of it is a function of the lines' meanings alone
(`Document.reads_ofText`): a key has the first value that is given for it, and the elements are
those in front of the first landmark followed by one landmark for each that is opened, with the
elements up to the next one as its content.

What a landmark holds is never a landmark, because no rule makes one
(`Line.Rule.not_landmark_of_mem`).
-/

namespace Wireframe

/-! ### Meanings -/

namespace Line.Meaning

/-- Whether a landmark is opened. -/
def opens : Meaning → Bool
  | landmark _ => true
  | _ => false

/-- The name of a landmark that is opened. -/
def landmarkName? : Meaning → Option String
  | landmark name => some name
  | _ => none

/-- The elements that a line stands for. -/
def content : Meaning → List Element
  | elements es => es
  | _ => []

/-- The value that is given for a key. -/
def value? (key : Metadata.Key) : Meaning → Option String
  | entry other value => if other = key then some value else none
  | _ => none

/-- The elements in front of the first landmark. -/
def preamble (meanings : List Meaning) : List Element :=
  (meanings.takeWhile (!·.opens)).flatMap content

/-- The landmarks that are opened, each with the elements up to the next one. -/
def sections : List Meaning → List Element
  | [] => []
  | landmark name :: rest => .landmark name (preamble rest) :: sections rest
  | entry .. :: rest => sections rest
  | elements _ :: rest => sections rest

@[simp]
theorem preamble_nil : preamble [] = [] := rfl

@[simp]
theorem preamble_landmark (name : String) (rest : List Meaning) :
    preamble (landmark name :: rest) = [] := rfl

@[simp]
theorem preamble_entry (key : Metadata.Key) (value : String) (rest : List Meaning) :
    preamble (entry key value :: rest) = preamble rest := rfl

@[simp]
theorem preamble_elements (es : List Element) (rest : List Meaning) :
    preamble (elements es :: rest) = es ++ preamble rest := rfl

end Line.Meaning

/-! ### The rules -/

namespace Line

/-- Elements are a meaning unless there are none. -/
theorem someElements_eq_some_iff {es : List Element} {meaning : Meaning} :
    someElements es = some meaning ↔ es ≠ [] ∧ meaning = .elements es := by
  cases es with
  | nil => simp [someElements]
  | cons e es => simp [someElements, eq_comm]

theorem someElements_eq_ite (es : List Element) :
    someElements es = if es = [] then none else some (.elements es) := by
  cases es <;> rfl

private theorem not_landmark_of_map {β : Type} {found? : Option β} {make : β → Element}
    (hmake : ∀ x, (make x).isLandmark = false) {es : List Element}
    (h : (found?.map fun x => Meaning.elements [make x]) = some (.elements es)) :
    ∀ e ∈ es, e.isLandmark = false := by
  obtain ⟨x, -, hx⟩ := Option.map_eq_some_iff.mp h
  injection hx with hx
  rw [← hx]
  simpa using hmake x

private theorem not_landmark_of_someElements {β : Type} {found : List β} {make : β → Element}
    (hmake : ∀ x, (make x).isLandmark = false) {es : List Element}
    (h : someElements (found.map make) = some (.elements es)) :
    ∀ e ∈ es, e.isLandmark = false := by
  obtain ⟨-, hes⟩ := someElements_eq_some_iff.mp h
  injection hes with hes
  rw [hes, List.forall_mem_map]
  exact fun x _ => hmake x

private theorem not_landmark_of_ite {p : Prop} [Decidable p] {element : Element}
    (helement : element.isLandmark = false) {es : List Element}
    (h : (if p then some (Meaning.elements [element]) else none) = some (.elements es)) :
    ∀ e ∈ es, e.isLandmark = false := by
  rw [Option.ite_none_right_eq_some, Option.some_inj] at h
  injection h.2 with hes
  rw [← hes]
  simpa using helement

/-- No rule makes an element that holds others. -/
theorem Rule.not_landmark_of_mem {rule : Rule} {line : List Char} {es : List Element}
    (h : rule.meaning? line = some (.elements es)) : ∀ e ∈ es, e.isLandmark = false := by
  cases rule with
  | metadata => simp [meaning?] at h
  | landmark => simp [meaning?] at h
  | skipLink => exact not_landmark_of_ite rfl h
  | heading => exact not_landmark_of_map (fun _ => rfl) h
  | buttons => exact not_landmark_of_someElements (fun _ => rfl) h
  | image => exact not_landmark_of_map (fun _ => rfl) h
  | input => exact not_landmark_of_map (fun _ => rfl) h
  | links => exact not_landmark_of_someElements (fun _ => rfl) h
  | divider => exact not_landmark_of_ite rfl h
  | listItem => exact not_landmark_of_map (fun _ => rfl) h
  | text =>
    rw [meaning?, ← ite_not] at h
    exact not_landmark_of_ite rfl h

/-- A line means nothing exactly if it is blank. -/
theorem read?_eq_none_iff {line : List Char} :
    read? line = none ↔ Text.allBlank line = true := by
  rw [← Text.trim_eq_nil_iff, read?]
  cases htrim : Text.trim line with
  | nil => simp
  | cons c cs =>
    have hsome : firstRule? (c :: cs) ≠ none := by
      -- if no other rule applies, the last one does
      intro hnone
      have := List.findSome?_eq_none_iff.mp hnone .text (by decide)
      simp [Rule.meaning?] at this
    simpa using hsome

/-- The rule of a list that a line is read by is in the list and applies to the line. -/
theorem applies_of_findSome? {rules : List Rule} {line : List Char} {rule : Rule}
    {meaning : Meaning} (h : (rules.findSome? fun rule => (rule.meaning? line).map (rule, ·)) =
      some (rule, meaning)) : rule ∈ rules ∧ rule.meaning? line = some meaning := by
  obtain ⟨found, hmem, hfound⟩ := List.exists_of_findSome?_eq_some h
  obtain ⟨m, hm, heq⟩ := Option.map_eq_some_iff.mp hfound
  obtain ⟨rfl, rfl⟩ := Prod.mk.inj heq
  exact ⟨hmem, hm⟩

/-- What a line stands for is no landmark, whatever rule it is read by. -/
theorem not_landmark_of_read? {line : List Char} {rule : Rule} {meaning : Meaning}
    (h : read? line = some (rule, meaning)) : ∀ e ∈ meaning.content, e.isLandmark = false := by
  cases meaning with
  | entry key value => exact fun e he => absurd he List.not_mem_nil
  | landmark name => exact fun e he => absurd he List.not_mem_nil
  | elements es =>
    rw [read?, Option.ite_none_left_eq_some] at h
    exact Rule.not_landmark_of_mem (applies_of_findSome? h.2).2

end Line

/-! ### Sections -/

namespace Line.Meaning

/-- Sectioning keeps the elements and their order: only landmarks come to stand around them. -/
theorem flatMap_leaves_sections {meanings : List Meaning} :
    preamble meanings ++ (sections meanings).flatMap Element.leaves =
      meanings.flatMap content := by
  induction meanings with
  | nil => rfl
  | cons meaning rest ih =>
    rw [List.flatMap_cons, ← ih]
    cases meaning with
    | entry key value => rfl
    | landmark name => rfl
    | elements es => rw [preamble_elements, List.append_assoc]; rfl

/-- There is one section for each landmark, in their order. -/
theorem landmarkNames_sections (meanings : List Meaning) :
    (sections meanings).filterMap Element.landmarkName? = meanings.filterMap landmarkName? := by
  induction meanings with
  | nil => rfl
  | cons meaning rest ih =>
    cases meaning with
    | entry key value => exact ih
    | landmark name => exact congrArg (name :: ·) ih
    | elements es => exact ih

theorem mem_flatMap_of_mem_preamble {meanings : List Meaning} {e : Element}
    (h : e ∈ preamble meanings) : e ∈ meanings.flatMap content := by
  rw [← flatMap_leaves_sections]
  exact List.mem_append_left _ h

end Line.Meaning

/-! ### Reading -/

namespace Outline

open Line Meaning

/-- The top-level elements with some more in the open landmark, or behind the others if none is
open. -/
def closedWith (outline : Outline) (es : List Element) : List Element :=
  match outline.openLandmark with
  | some (name, children) => outline.elements ++ [.landmark name (children ++ es)]
  | none => outline.elements ++ es

theorem closedWith_nil (outline : Outline) : outline.closedWith [] = outline.closedElements := by
  rw [closedWith, closedElements]
  cases outline.openLandmark <;> simp

/-- One line more: what it stands for goes where the next elements go, and a landmark that it
opens takes them from there on. -/
theorem closedWith_add (outline : Outline) (meaning : Meaning) (rest : List Meaning) :
    (outline.add meaning).closedWith (preamble rest) ++ sections rest =
      outline.closedWith (preamble (meaning :: rest)) ++ sections (meaning :: rest) := by
  cases meaning with
  | entry key value => rw [preamble_entry]; rfl
  | landmark name =>
    rw [preamble_landmark, closedWith_nil, sections, List.append_cons]
    rfl
  | elements es =>
    rw [preamble_elements, add, closedWith, closedWith]
    cases outline.openLandmark <;> simp [sections]

/-- All lines: what is open takes the elements in front of the first landmark, and the landmarks
follow. -/
theorem closedElements_foldl_add (outline : Outline) (meanings : List Meaning) :
    (meanings.foldl add outline).closedElements =
      outline.closedWith (preamble meanings) ++ sections meanings := by
  induction meanings generalizing outline with
  | nil => rw [preamble_nil, closedWith_nil, sections, List.append_nil]; rfl
  | cons meaning rest ih => rw [List.foldl_cons, ih, closedWith_add]

/-- The first value for a key counts, and later ones do not. -/
theorem get?_add (outline : Outline) (meaning : Meaning) (key : Metadata.Key) :
    (outline.add meaning).metadata.get? key =
      (outline.metadata.get? key).or (meaning.value? key) := by
  cases meaning with
  | entry other value =>
    rw [add, Metadata.get?_insert, value?]
    simp only [eq_comm]
  | landmark name => exact (Option.or_none ..).symm
  | elements es =>
    have hsame : (outline.add (.elements es)).metadata = outline.metadata := by
      simp only [add]
      cases outline.openLandmark <;> rfl
    rw [hsame]
    exact (Option.or_none ..).symm

/-- All lines: a value that is there already stays, otherwise the first one is taken. -/
theorem get?_foldl_add (outline : Outline) (meanings : List Meaning) (key : Metadata.Key) :
    (meanings.foldl add outline).metadata.get? key =
      (outline.metadata.get? key).or (meanings.findSome? (value? key)) := by
  induction meanings generalizing outline with
  | nil => simp
  | cons meaning rest ih =>
    rw [List.foldl_cons, ih, get?_add, Option.or_assoc, List.findSome?_cons]
    cases meaning.value? key <;> rfl

end Outline

/-! ### Documents -/

namespace Element

theorem children_subset_leaves (element : Element) : element.children ⊆ element.leaves := by
  cases element <;> simp [children, leaves]

/-- An element that is no landmark is its own only leaf. -/
theorem leaves_eq_singleton {element : Element} (h : element.isLandmark = false) :
    element.leaves = [element] := by
  cases element with
  | landmark name children => exact Bool.noConfusion h
  | _ => rfl

theorem landmarkName?_eq_none {element : Element} (h : element.isLandmark = false) :
    element.landmarkName? = none := by
  cases element with
  | landmark name children => exact Bool.noConfusion h
  | _ => rfl

/-- Elements without landmarks are their own leaves. -/
theorem flatMap_leaves_eq_self {elements : List Element}
    (h : ∀ e ∈ elements, e.isLandmark = false) : elements.flatMap leaves = elements := by
  induction elements with
  | nil => rfl
  | cons e rest ih =>
    obtain ⟨he, hrest⟩ := List.forall_mem_cons.mp h
    rw [List.flatMap_cons, leaves_eq_singleton he, ih hrest, List.singleton_append]

end Element

namespace Document

/-- Counting a landmark and what is in it is counting what is in it, and the landmark. -/
theorem elementCount_eq (document : Document) :
    document.elementCount = document.leafCount + document.landmarkNames.length := by
  rw [elementCount, leafCount, leaves, landmarkNames]
  induction document.elements with
  | nil => rfl
  | cons element rest ih =>
    rw [List.flatMap_cons, List.flatMap_cons, List.length_append, List.length_append, ih,
      List.filterMap_cons]
    cases element <;>
      simp only [Element.children, Element.leaves, Element.landmarkName?, List.length_cons,
        List.length_nil] <;> omega

open Element Line Meaning

/-- What lines of the given meanings make as a document. -/
structure Reads (document : Document) (meanings : List Meaning) : Prop where
  /-- A key has the first value that is given for it. -/
  value : ∀ key, document.metadata.get? key = meanings.findSome? (value? key)
  /-- Landmarks divide the elements. -/
  elements : document.elements = preamble meanings ++ sections meanings
  /-- What a landmark holds is no landmark. -/
  flat : ∀ element ∈ document.elements, ∀ child ∈ element.children, child.isLandmark = false
  leaves : document.leaves = meanings.flatMap content
  landmarkNames : document.landmarkNames = meanings.filterMap Meaning.landmarkName?
  elementCount : document.elementCount = document.leafCount + document.landmarkNames.length

/-- No line means a landmark within its elements: landmarks come from sectioning only. -/
theorem not_landmark_of_mem_meanings (text : List Char) :
    ∀ e ∈ (meanings text).flatMap content, e.isLandmark = false := by
  intro e he
  obtain ⟨meaning, hmeaning, he⟩ := List.mem_flatMap.mp he
  obtain ⟨line, -, hline⟩ := List.mem_filterMap.mp hmeaning
  obtain ⟨⟨rule, m⟩, hread, rfl⟩ := Option.map_eq_some_iff.mp hline
  exact not_landmark_of_read? hread e he

/-- **A document is what the meanings of its lines make**: every line that is not blank has one
meaning, a key has the first value that is given for it, and landmarks divide the elements. -/
theorem reads_ofText (text : String) :
    (∀ line, read? line = none ↔ Text.allBlank line = true) ∧
      (ofText text).Reads (meanings text.toList) := by
  have helements : (ofText text).elements =
      preamble (meanings text.toList) ++ sections (meanings text.toList) :=
    (Outline.closedElements_foldl_add _ _).trans (congrArg (· ++ _) (List.nil_append _))
  have hpreamble : ∀ e ∈ preamble (meanings text.toList), e.isLandmark = false := fun e he =>
    not_landmark_of_mem_meanings _ e (mem_flatMap_of_mem_preamble he)
  have hleaves : (ofText text).leaves = (meanings text.toList).flatMap content := by
    rw [Document.leaves, helements, List.flatMap_append, flatMap_leaves_eq_self hpreamble,
      flatMap_leaves_sections]
  refine ⟨fun _ => read?_eq_none_iff, ⟨fun key => ?_, helements, ?_, hleaves, ?_,
    elementCount_eq _⟩⟩
  · exact (Outline.get?_foldl_add _ _ key).trans (Option.none_or ..)
  · intro element helement child hchild
    refine not_landmark_of_mem_meanings text.toList child ?_
    rw [← hleaves]
    exact List.mem_flatMap.mpr ⟨element, helement, element.children_subset_leaves hchild⟩
  · have hnames : (preamble (meanings text.toList)).filterMap Element.landmarkName? = [] :=
      List.filterMap_eq_nil_iff.mpr fun e he => Element.landmarkName?_eq_none (hpreamble e he)
    rw [Document.landmarkNames, helements, List.filterMap_append, hnames, List.nil_append,
      landmarkNames_sections]

end Document

end Wireframe
