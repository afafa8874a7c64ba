import Wireframe.Library.Data
import Wireframe.Proofs.Data.Forms
import Wireframe.Proofs.Json.Values

/-!
# In which forms a library is given

What a library file in JSON says is a form of the library (`Library.IsLibrary`), which leaves a
choice at every level: each library, category, pattern and example page is a record, with its fields
in any order and other fields among them, or a list, and what is empty may be left out. A library is
read from exactly the texts that say one of its forms, and it is written in one of them. Nothing is
read from a text with a flaw, however deep it lies (`Library.Faulty`). Both are said by
`Library.ofJson?_forms`.
-/

namespace Wireframe.Library

open Data (Flawed Form HasItem Slot)

/-! ### Forms -/

/-- The names of the parts of a pattern. -/
def patternNames : List String := ["id", "label", "description", "syntax"]

/-- The names of the parts of a category. -/
def categoryNames : List String := ["name", "patterns"]

/-- The names of the parts of an example page. -/
def exampleNames : List String := ["name", "file"]

/-- The names of the parts of a library. -/
def libraryNames : List String := ["categories", "examples"]

/-- The parts of a pattern. -/
def patternSlots (pattern : Pattern) : List Slot :=
  [.text "id" pattern.id, .text "label" pattern.label,
    .textOrEmpty "description" pattern.description, .text "syntax" pattern.syntaxText]

/-- Whether data are a form of a pattern. -/
def IsPattern (pattern : Pattern) : Data → Prop := Form (patternSlots pattern)

/-- The parts of a category. -/
def categorySlots (category : PatternCategory) : List Slot :=
  [.text "name" category.name, .items "patterns" IsPattern category.patterns]

/-- Whether data are a form of a category. -/
def IsCategory (category : PatternCategory) : Data → Prop := Form (categorySlots category)

/-- The parts of an example page. -/
def exampleSlots (page : ExamplePage) : List Slot :=
  [.text "name" page.name, .text "file" page.file]

/-- Whether data are a form of an example page. -/
def IsExample (page : ExamplePage) : Data → Prop := Form (exampleSlots page)

/-- The parts of a library. -/
def librarySlots (library : Library) : List Slot :=
  [.items "categories" IsCategory library.categories, .items "examples" IsExample library.examples]

/-- Whether data are a form of a library. -/
def IsLibrary (library : Library) : Data → Prop := Form (librarySlots library)

/-! ### Reading forms -/

section Reading

variable {data : Data} {pattern : Pattern} {category : PatternCategory} {page : ExamplePage}
  {library : Library}

theorem nodup_names : patternNames.Nodup ∧ categoryNames.Nodup ∧ exampleNames.Nodup ∧
    libraryNames.Nodup := by decide

/-- A pattern is read from exactly the data of its form. -/
theorem pattern?_eq_some_iff : pattern? false data = some pattern ↔ IsPattern pattern data := by
  have hneeded : ∃ slot ∈ patternSlots pattern, ¬ slot.MayLack := ⟨_, List.mem_cons_self .., id⟩
  refine Iff.trans ?_ (Data.exists_fields?_iff nodup_names.1 (.inl hneeded))
  change _ ↔ ∃ values, data.fields? false ["id", "label", "description", "syntax"] = some values ∧ _
  rw [pattern?]
  cases hfields : data.fields? false ["id", "label", "description", "syntax"] with
  | none => simp
  | some values =>
    match values, Data.length_of_fields? hfields with
    | [id, label, description, syntaxText], _ =>
      obtain ⟨_, _, _, _⟩ := pattern
      simp [patternSlots, Slot.fills_text, Slot.fills_textOrEmpty, Option.bind_eq_some_iff]

theorem category?_eq_some_iff :
    category? false data = some category ↔ IsCategory category data := by
  have hneeded : ∃ slot ∈ categorySlots category, ¬ slot.MayLack :=
    ⟨_, List.mem_cons_self .., id⟩
  refine Iff.trans ?_ (Data.exists_fields?_iff nodup_names.2.1 (.inl hneeded))
  change _ ↔ ∃ values, data.fields? false ["name", "patterns"] = some values ∧ _
  rw [category?]
  cases hfields : data.fields? false ["name", "patterns"] with
  | none => simp
  | some values =>
    match values, Data.length_of_fields? hfields with
    | [name, patterns], _ =>
      obtain ⟨_, _⟩ := category
      simp [categorySlots, Slot.fills_text, Option.bind_eq_some_iff,
        Slot.fills_items fun _ _ => pattern?_eq_some_iff]

theorem examplePage?_eq_some_iff : examplePage? false data = some page ↔ IsExample page data := by
  have hneeded : ∃ slot ∈ exampleSlots page, ¬ slot.MayLack := ⟨_, List.mem_cons_self .., id⟩
  refine Iff.trans ?_ (Data.exists_fields?_iff nodup_names.2.2.1 (.inl hneeded))
  change _ ↔ ∃ values, data.fields? false ["name", "file"] = some values ∧ _
  rw [examplePage?]
  cases hfields : data.fields? false ["name", "file"] with
  | none => simp
  | some values =>
    match values, Data.length_of_fields? hfields with
    | [name, file], _ =>
      obtain ⟨_, _⟩ := page
      simp [exampleSlots, Slot.fills_text, Option.bind_eq_some_iff]

/-- A library is read from its forms. No part of it must be given, so a moment would be read as the
library with nothing in it. -/
theorem ofData?_eq_some_iff (hmoment : ∀ written, data ≠ .moment written) :
    ofData? false data = some library ↔ IsLibrary library data := by
  refine Iff.trans ?_ (Data.exists_fields?_iff nodup_names.2.2.2 (.inr hmoment))
  change _ ↔ ∃ values, data.fields? false ["categories", "examples"] = some values ∧ _
  rw [ofData?]
  cases hfields : data.fields? false ["categories", "examples"] with
  | none => simp
  | some values =>
    match values, Data.length_of_fields? hfields with
    | [categories, examples], _ =>
      obtain ⟨_, _⟩ := library
      simp [librarySlots, Option.bind_eq_some_iff,
        Slot.fills_items fun _ _ => category?_eq_some_iff,
        Slot.fills_items fun _ _ => examplePage?_eq_some_iff]

end Reading

/-! ### Written libraries -/

theorem isPattern_patternData (pattern : Pattern) : IsPattern pattern (patternData pattern) :=
  .of_written (.given rfl (.given rfl (.given rfl (.given rfl .nil))))

theorem isCategory_categoryData (category : PatternCategory) :
    IsCategory category (categoryData category) :=
  .of_written (.given rfl (.given (Slot.holds_items_map isPattern_patternData _) .nil))

theorem isExample_exampleData (page : ExamplePage) : IsExample page (exampleData page) :=
  .of_written (.given rfl (.given rfl .nil))

/-- A library is written in one of its forms. -/
theorem isLibrary_toData (library : Library) : IsLibrary library library.toData :=
  .of_written (.given (Slot.holds_items_map isCategory_categoryData _)
    (.given (Slot.holds_items_map isExample_exampleData _) .nil))

/-- Every library can be written as JSON. -/
theorem writable_toData (library : Library) : Json.Writable library.toData := by
  have hpattern (pattern : Pattern) : Json.Writable (patternData pattern) :=
    ⟨trivial, trivial, trivial, trivial, trivial⟩
  have hcategory (category : PatternCategory) : Json.Writable (categoryData category) :=
    ⟨trivial, Json.allWritable_map hpattern _, trivial⟩
  have hexample (page : ExamplePage) : Json.Writable (exampleData page) :=
    ⟨trivial, trivial, trivial⟩
  exact ⟨Json.allWritable_map hcategory _, Json.allWritable_map hexample _, trivial⟩

/-! ### Flaws -/

/-- Data with a flaw at some level of what would be a library. -/
inductive Faulty (data : Data) : Prop
  | library (h : Flawed [] libraryNames data)
  | category {category : Data} (hcategory : HasItem libraryNames data "categories" category)
    (h : Flawed ["name"] categoryNames category)
  | pattern {category pattern : Data} (hcategory : HasItem libraryNames data "categories" category)
    (hpattern : HasItem categoryNames category "patterns" pattern)
    (h : Flawed ["id", "label", "syntax"] patternNames pattern)
  | page {page : Data} (hpage : HasItem libraryNames data "examples" page)
    (h : Flawed ["name", "file"] exampleNames page)

section Flaws

variable {data : Data}

/-- The data of a pattern have no flaw: no missing name, no repeated or unknown one. -/
theorem not_flawed_pattern {pattern : Pattern} (h : IsPattern pattern data) :
    ¬ Flawed ["id", "label", "syntax"] patternNames data :=
  h.not_flawed nodup_names.1 (by simp [patternSlots, Slot.text, Slot.textOrEmpty])
    (by simp [patternSlots])

theorem not_flawed_category {category : PatternCategory} (h : IsCategory category data) :
    ¬ Flawed ["name"] categoryNames data :=
  h.not_flawed nodup_names.2.1 (by simp [categorySlots, Slot.text])
    (by simp [categorySlots])

theorem not_flawed_example {page : ExamplePage} (h : IsExample page data) :
    ¬ Flawed ["name", "file"] exampleNames data :=
  h.not_flawed nodup_names.2.2.1 (by simp [exampleSlots, Slot.text])
    (by simp [exampleSlots])

theorem not_flawed_library {library : Library} (h : IsLibrary library data) :
    ¬ Flawed [] libraryNames data :=
  h.not_flawed nodup_names.2.2.2 (by simp) (by simp [librarySlots])

/-- No form of a library has a flaw at any level. -/
theorem not_faulty {library : Library} (h : IsLibrary library data) : ¬ Faulty data := by
  have hcategory {item : Data} (hitem : HasItem libraryNames data "categories" item) :
      ∃ category, IsCategory category item :=
    h.exists_of_hasItem nodup_names.2.2.2 (List.mem_cons_self ..) hitem
  rintro (hflawed | ⟨hitem, hflawed⟩ | ⟨hitem, hpattern, hflawed⟩ | ⟨hitem, hflawed⟩)
  · exact not_flawed_library h hflawed
  · obtain ⟨category, hform⟩ := hcategory hitem
    exact not_flawed_category hform hflawed
  · obtain ⟨category, hform⟩ := hcategory hitem
    obtain ⟨pattern, hform⟩ := hform.exists_of_hasItem nodup_names.2.1
      (List.mem_cons_of_mem _ (List.mem_cons_self ..)) hpattern
    exact not_flawed_pattern hform hflawed
  · obtain ⟨page, hform⟩ := h.exists_of_hasItem nodup_names.2.2.2
      (List.mem_cons_of_mem _ (List.mem_cons_self ..)) hitem
    exact not_flawed_example hform hflawed

end Flaws

/-! ### Library files -/

/-- A library is read from exactly the texts whose data have its form. -/
theorem ofJson?_eq_some_iff {text : String} {library : Library} : ofJson? text = some library ↔
    ∃ data, Json.read? text = some data ∧ IsLibrary library data := by
  rw [ofJson?, Option.bind_eq_some_iff]
  exact exists_congr fun data => and_congr_right fun hread =>
    ofData?_eq_some_iff (Json.read?_ne_moment hread)

/-- Data are read back from what is written of them, spread over lines or not. -/
theorem read?_write {data : Data} (h : Json.Writable data) (spread : Bool) :
    Json.read? (String.ofList (Json.write spread 0 data)) = some data := by
  have hspace : ∀ c ∈ [], Json.isSpace c = true := fun _ hmem => absurd hmem List.not_mem_nil
  have hread := Json.read?_write h spread hspace
  rwa [List.append_nil] at hread

/-- How a library is read from JSON. -/
structure ReadsForms (library : Library) : Prop where
  /-- It is read from the text that it is written as. -/
  toJson : ofJson? library.toJson = some library
  /-- It is read from the texts that say one of its forms, and from no others. -/
  iff : ∀ text, ofJson? text = some library ↔
    ∃ data, Json.read? text = some data ∧ IsLibrary library data
  /-- Each of its forms that can be written is read when it has been written. -/
  write : ∀ data spread, Json.Writable data → IsLibrary library data →
    ofJson? (String.ofList (Json.write spread 0 data)) = some library

/-- **Libraries in JSON**: every library is read from all of its forms, the one that it is written
in among them, and nothing is read from a text with a flaw, at whatever level. -/
theorem ofJson?_forms : (∀ library : Library, ReadsForms library) ∧
    ∀ text data, Json.read? text = some data → Faulty data → ofJson? text = none := by
  refine ⟨fun library => ⟨?_, fun text => ofJson?_eq_some_iff, fun data spread hdata hform => ?_⟩,
    fun text data hread hfaulty => ?_⟩
  · exact ofJson?_eq_some_iff.mpr
      ⟨_, read?_write (writable_toData library) false, isLibrary_toData library⟩
  · exact ofJson?_eq_some_iff.mpr ⟨data, read?_write hdata spread, hform⟩
  · refine Option.eq_none_iff_forall_ne_some.mpr fun library hlibrary => ?_
    obtain ⟨other, hother, hform⟩ := ofJson?_eq_some_iff.mp hlibrary
    obtain rfl := Option.some_inj.mp (hread.symm.trans hother)
    exact not_faulty hform hfaulty

/-- Fields in another order, one that is not known, a list in place of a record, and empty parts
that are left out. -/
example : ofJson? ("\x7b\"examples\": [[\"Home\", \"home.txt\"]], \"by\": null, " ++
    "\"categories\": [\x7b\"patterns\": [" ++
    "\x7b\"syntax\": \"[_]\", \"id\": \"s\", \"label\": \"\\u00e9\"\x7d], " ++
    "\"name\": \"Forms\"\x7d, [\"Links\"]]\x7d") =
      some ⟨[⟨"Forms", [⟨"s", "é", "", "[_]"⟩]⟩, ⟨"Links", []⟩], [⟨"Home", "home.txt"⟩]⟩ := by
  decide +kernel

/-- What says of a library that it has an example page, which is a list with null for the name. -/
def namelessPage : Data :=
  .record [("examples", .list [.list [.null, .text "home.txt"]])]

theorem ofJson?_namelessPage :
    Json.read? "\x7b\"examples\":[[null,\"home.txt\"]]\x7d" = some namelessPage ∧
      Faulty namelessPage ∧ ofJson? "\x7b\"examples\":[[null,\"home.txt\"]]\x7d" = none := by
  have htext : "\x7b\"examples\":[[null,\"home.txt\"]]\x7d" = Json.compact namelessPage := by
    decide +kernel
  have hwritable : Json.Writable namelessPage := ⟨⟨⟨trivial, trivial, trivial⟩, trivial⟩, trivial⟩
  have hread : Json.read? "\x7b\"examples\":[[null,\"home.txt\"]]\x7d" = some namelessPage := by
    rw [htext]
    exact read?_write hwritable false
  have hpage : HasItem libraryNames namelessPage "examples" (.list [.null, .text "home.txt"]) :=
    ⟨_, .record (List.mem_singleton_self _), List.mem_singleton_self _⟩
  have hfaulty : Faulty namelessPage :=
    .page hpage (.bare (List.mem_cons_self ..) (.list (List.mem_cons_self ..)) trivial)
  exact ⟨hread, hfaulty, ofJson?_forms.2 _ _ hread hfaulty⟩

end Wireframe.Library
