import Mathlib.Data.List.Perm.Basic
import Wireframe.Proofs.Data

/-!
# The forms of a value

The same value may be written in many ways. The parts of a value are slots here, each with a name,
what is asked of the data in it, and whether it may be left out. A form of the value is a record of
the parts in any order, with other fields anywhere among them, or a list of the parts in their own
order (`Data.Form`). Data are a form exactly if reading their fields gives to each slot what it asks
for (`Data.exists_fields?_iff`), so how something is read and in which forms it may be given are two
descriptions of one thing.

The other way round, some flaws keep data from being a form whatever the value is
(`Data.Form.not_flawed`): a part that is missing or given twice, or something that is neither a text
nor a list or record in the place of a part.
-/

namespace Wireframe.Data

/-! ### Slots -/

/-- A part of a value: where it is found and what is asked of it. -/
structure Slot where
  /-- The name of the part. -/
  name : String
  /-- Whether data stand for the part. -/
  Holds : Data → Prop
  /-- Whether the part may be left out. -/
  MayLack : Prop

namespace Slot

/-- Whether what is given for a slot, if anything, is what it asks for. -/
def Fills (slot : Slot) : Option Data → Prop
  | some value => slot.Holds value
  | none => slot.MayLack

/-- The slot for a text that must be given. -/
def text (name value : String) : Slot := ⟨name, (· = .text value), False⟩

/-- The slot for a text that may be left out if it is empty. -/
def textOrEmpty (name value : String) : Slot := ⟨name, (· = .text value), value = ""⟩

/-- The slot for a list of values, each in some form, that may be left out if it is empty. -/
def items {β : Type} (name : String) (Is : β → Data → Prop) (values : List β) : Slot :=
  ⟨name, fun data => ∃ items, data = .list items ∧ List.Forall₂ Is values items, values = []⟩

end Slot

/-! ### Forms -/

/-- Fields for slots, in their order, some of them left out. -/
inductive Written : List Slot → List (String × Data) → Prop
  | nil : Written [] []
  | given {slot : Slot} {slots : List Slot} {value : Data} {fields : List (String × Data)}
    (h : slot.Holds value) (hrest : Written slots fields) :
    Written (slot :: slots) ((slot.name, value) :: fields)
  | leftOut {slot : Slot} {slots : List Slot} {fields : List (String × Data)}
    (h : slot.MayLack) (hrest : Written slots fields) : Written (slot :: slots) fields

/-- Items for slots, in their order, only those at the end left out. -/
inductive Listed : List Slot → List Data → Prop
  | item {slot : Slot} {slots : List Slot} {value : Data} {items : List Data}
    (h : slot.Holds value) (hrest : Listed slots items) : Listed (slot :: slots) (value :: items)
  | leftOut {slots : List Slot} (h : ∀ slot ∈ slots, slot.MayLack) : Listed slots []

/-- The forms of a value with some parts: a record of the parts and other fields, in any order, or a
list of the parts in their order. -/
inductive Form (slots : List Slot) : Data → Prop
  | record {fields given others : List (String × Data)} (hgiven : Written slots given)
    (hothers : ∀ field ∈ others, field.1 ∉ slots.map Slot.name)
    (hfields : fields.Perm (given ++ others)) : Form slots (record fields)
  | list {items : List Data} (h : Listed slots items) : Form slots (list items)

variable {slots : List Slot} {fields given : List (String × Data)} {items : List Data} {data : Data}

/-! ### Records -/

/-- The value of a name that is given once at most. -/
theorem lookup_eq_some_iff_mem {name : String} {value : Data}
    (h : (fields.map Prod.fst).count name ≤ 1) :
    List.lookup name fields = some value ↔ (name, value) ∈ fields := by
  induction fields with
  | nil => simp
  | cons field fields ih =>
    obtain ⟨other, found⟩ := field
    rw [List.map_cons] at h
    by_cases hname : name = other
    · subst hname
      -- the name is not among the others
      rw [List.count_cons_self] at h
      have hnone : name ∉ fields.map Prod.fst := List.count_eq_zero.mp (by omega)
      have hnot : (name, value) ∉ fields := fun hmem =>
        hnone (List.mem_map_of_mem (f := Prod.fst) hmem)
      simp [hnot, eq_comm]
    · rw [List.count_cons_of_ne (Ne.symm hname)] at h
      rw [lookup_cons_of_ne hname, ih h]
      simp [hname]

namespace Written

/-- Fields are given in the order of the slots, and each at most once. -/
theorem sublist (h : Written slots given) :
    (given.map Prod.fst).Sublist (slots.map Slot.name) := by
  induction h with
  | nil => exact .slnil
  | given _ _ ih => exact ih.cons_cons _
  | leftOut _ _ ih => exact ih.cons _

/-- Each field that is given holds what its slot asks for. -/
theorem holds (h : Written slots given) {name : String} {value : Data}
    (hmem : (name, value) ∈ given) : ∃ slot ∈ slots, slot.name = name ∧ slot.Holds value := by
  induction h with
  | nil => exact absurd hmem List.not_mem_nil
  | given hholds _ ih =>
    rcases List.mem_cons.mp hmem with heq | hmem
    · obtain ⟨rfl, rfl⟩ := Prod.mk.inj heq
      exact ⟨_, List.mem_cons_self .., rfl, hholds⟩
    · obtain ⟨slot, hslot, h⟩ := ih hmem
      exact ⟨slot, List.mem_cons_of_mem _ hslot, h⟩
  | leftOut _ _ ih =>
    obtain ⟨slot, hslot, h⟩ := ih hmem
    exact ⟨slot, List.mem_cons_of_mem _ hslot, h⟩

/-- What is given under the name of a slot fills it, as does nothing where nothing is needed. -/
theorem fills (h : Written slots given) (hnames : (slots.map Slot.name).Nodup) {slot : Slot}
    (hslot : slot ∈ slots) : slot.Fills (List.lookup slot.name given) := by
  induction h with
  | nil => exact absurd hslot List.not_mem_nil
  | @given first slots value fields hholds _ ih =>
    obtain ⟨hfirst, hnames⟩ := List.nodup_cons.mp hnames
    rcases List.mem_cons.mp hslot with rfl | hslot
    · rw [List.lookup_cons_self]
      exact hholds
    · have hne : slot.name ≠ first.name := fun heq =>
        hfirst (heq ▸ List.mem_map_of_mem hslot)
      rw [lookup_cons_of_ne hne]
      exact ih hnames hslot
  | @leftOut first slots fields hlack hrest ih =>
    obtain ⟨hfirst, hnames⟩ := List.nodup_cons.mp hnames
    rcases List.mem_cons.mp hslot with rfl | hslot
    · rw [lookup_eq_none fun hmem => hfirst (hrest.sublist.subset hmem)]
      exact hlack
    · exact ih hnames hslot

end Written

/-- What a record gives to slots, in their order. -/
def givenTo (slots : List Slot) (fields : List (String × Data)) : List (String × Data) :=
  slots.filterMap fun slot => (List.lookup slot.name fields).map (slot.name, ·)

/-- Fields that fill the slots are written slot by slot. -/
theorem written_givenTo (h : ∀ slot ∈ slots, slot.Fills (List.lookup slot.name fields)) :
    Written slots (givenTo slots fields) := by
  induction slots with
  | nil => exact .nil
  | cons slot slots ih =>
    obtain ⟨hslot, hslots⟩ := List.forall_mem_cons.mp h
    rw [givenTo, List.filterMap_cons]
    cases hlookup : List.lookup slot.name fields with
    | none =>
      rw [hlookup] at hslot
      exact .leftOut hslot (ih hslots)
    | some value =>
      rw [hlookup] at hslot
      exact .given hslot (ih hslots)

/-- The fields that are given to slots are those with their names. -/
theorem mem_givenTo {name : String} {value : Data} : (name, value) ∈ givenTo slots fields ↔
    name ∈ slots.map Slot.name ∧ List.lookup name fields = some value := by
  simp only [givenTo, List.mem_filterMap, Option.map_eq_some_iff, Prod.mk.injEq, List.mem_map]
  constructor
  · rintro ⟨slot, hslot, found, hlookup, rfl, rfl⟩
    exact ⟨⟨slot, hslot, rfl⟩, hlookup⟩
  · rintro ⟨⟨slot, hslot, rfl⟩, hlookup⟩
    exact ⟨slot, hslot, value, hlookup, rfl, rfl⟩

/-- Fields do not repeat if none of their names does. -/
theorem nodup_filter_names {names : List String}
    (hcount : ∀ name ∈ names, (fields.map Prod.fst).count name ≤ 1) :
    (fields.filter fun field => decide (field.1 ∈ names)).Nodup := by
  refine List.Nodup.of_map Prod.fst (List.nodup_iff_count_le_one.mpr fun name => ?_)
  have hsublist := (List.filter_sublist (p := fun field => decide (field.1 ∈ names))
    (l := fields)).map Prod.fst
  by_cases hname : name ∈ names
  · exact Nat.le_trans (hsublist.count_le name) (hcount name hname)
  · rw [List.count_eq_zero_of_not_mem]
    · exact Nat.zero_le 1
    · rintro hmem
      obtain ⟨field, hfield, rfl⟩ := List.mem_map.mp hmem
      exact hname (of_decide_eq_true (List.mem_filter.mp hfield).2)

/-- A record that gives no slot twice is made of what it gives to the slots and of other fields. -/
theorem perm_givenTo (hnames : (slots.map Slot.name).Nodup)
    (hcount : ∀ name ∈ slots.map Slot.name, (fields.map Prod.fst).count name ≤ 1)
    (hwritten : Written slots (givenTo slots fields)) : fields.Perm (givenTo slots fields ++
      fields.filter fun field => !decide (field.1 ∈ slots.map Slot.name)) := by
  have hgiven : (givenTo slots fields).Nodup :=
    List.Nodup.of_map Prod.fst (hwritten.sublist.nodup hnames)
  -- no part is repeated in either list, so it is enough that both have the same ones
  have hsame : (fields.filter fun field => decide (field.1 ∈ slots.map Slot.name)).Perm
      (givenTo slots fields) := by
    refine (List.perm_ext_iff_of_nodup (nodup_filter_names hcount) hgiven).mpr
      fun ⟨name, value⟩ => ?_
    rw [List.mem_filter, mem_givenTo, decide_eq_true_iff, and_comm]
    exact and_congr_right fun hname => (lookup_eq_some_iff_mem (hcount name hname)).symm
  exact (List.filter_append_perm _ fields).symm.trans (hsame.append_right _)

/-- The forms that are records: no part is given twice, and every slot gets what it asks for. -/
theorem form_record_iff (hnames : (slots.map Slot.name).Nodup) : Form slots (record fields) ↔
    (∀ name ∈ slots.map Slot.name, (fields.map Prod.fst).count name ≤ 1) ∧
      ∀ slot ∈ slots, slot.Fills (List.lookup slot.name fields) := by
  constructor
  · rintro (@⟨_, given, others, hgiven, hothers, hperm⟩)
    have hother : ∀ name ∈ slots.map Slot.name, name ∉ others.map Prod.fst := by
      intro name hname hmem
      obtain ⟨field, hfield, rfl⟩ := List.mem_map.mp hmem
      exact hothers field hfield hname
    have honce (name : String) : (given.map Prod.fst).count name ≤ 1 :=
      List.nodup_iff_count_le_one.mp (hgiven.sublist.nodup hnames) name
    have hcount : ∀ name ∈ slots.map Slot.name, (fields.map Prod.fst).count name ≤ 1 := by
      intro name hname
      rw [(hperm.map Prod.fst).count_eq, List.map_append, List.count_append,
        List.count_eq_zero_of_not_mem (hother name hname)]
      exact honce name
    refine ⟨hcount, fun slot hslot => ?_⟩
    have hname := List.mem_map_of_mem (f := Slot.name) hslot
    -- the other fields do not matter for the slot, and neither does the order
    have hlookup : List.lookup slot.name fields = List.lookup slot.name given := by
      refine Option.ext fun value => ?_
      rw [lookup_eq_some_iff_mem (hcount _ hname), lookup_eq_some_iff_mem (honce _),
        hperm.mem_iff, List.mem_append, or_iff_left]
      exact fun hmem => hother _ hname (List.mem_map_of_mem hmem)
    rw [hlookup]
    exact hgiven.fills hnames hslot
  · rintro ⟨hcount, hfills⟩
    have hwritten := written_givenTo hfills
    refine .record hwritten (fun field hfield => ?_) (perm_givenTo hnames hcount hwritten)
    simpa using (List.mem_filter.mp hfield).2

/-! ### Lists -/

/-- The forms that are lists: they are not too long, and every slot gets what it asks for. -/
theorem listed_iff : Listed slots items ↔
    items.length ≤ slots.length ∧ List.Forall₂ Slot.Fills slots (inOrder slots.length items) := by
  induction slots generalizing items with
  | nil =>
    cases items with
    | nil => exact iff_of_true (.leftOut (by simp)) ⟨Nat.le_refl 0, .nil⟩
    | cons value items => exact iff_of_false (fun h => by cases h) (by simp)
  | cons slot slots ih =>
    cases items with
    | nil =>
      rw [List.length_cons, inOrder, List.forall₂_cons]
      constructor
      · intro h
        cases h with
        | leftOut h =>
          obtain ⟨hslot, hslots⟩ := List.forall_mem_cons.mp h
          exact ⟨Nat.zero_le _, hslot, (ih.mp (.leftOut hslots)).2⟩
      · rintro ⟨-, hslot, hslots⟩
        -- slots behind the end of the list are left to be filled by nothing
        cases ih.mpr ⟨Nat.zero_le _, hslots⟩ with
        | leftOut h => exact .leftOut (List.forall_mem_cons.mpr ⟨hslot, h⟩)
    | cons value items =>
      rw [List.length_cons, List.length_cons, inOrder, List.forall₂_cons, Nat.add_le_add_iff_right]
      constructor
      · intro h
        cases h with
        | item hvalue hitems => exact ⟨(ih.mp hitems).1, hvalue, (ih.mp hitems).2⟩
      · rintro ⟨hlength, hvalue, hitems⟩
        exact .item hvalue (ih.mpr ⟨hlength, hitems⟩)

/-- A list stands for slots in their order. -/
theorem form_list_iff : Form slots (list items) ↔ Listed slots items := by
  constructor
  · intro h
    cases h with
    | list h => exact h
  · exact .list

/-! ### Reading -/

/-- The items are filled up, or cut off, to the number of slots. -/
theorem length_inOrder (count : ℕ) (items : List Data) : (inOrder count items).length = count := by
  induction count generalizing items with
  | zero => rfl
  | succ count ih => cases items <;> rw [inOrder, List.length_cons, ih]

/-- One value, or none, is read for each name. -/
theorem length_of_fields? {surplus : Bool} {names : List String} {values : List (Option Data)}
    (h : data.fields? surplus names = some values) : values.length = names.length := by
  cases data with
  | record fields =>
    obtain ⟨-, heq⟩ := Option.ite_none_left_eq_some.mp h
    rw [← Option.some_inj.mp heq, List.length_map]
  | list items =>
    obtain ⟨-, heq⟩ := Option.ite_none_left_eq_some.mp h
    rw [← Option.some_inj.mp heq, length_inOrder]
  | moment written => rw [← Option.some_inj.mp h, List.length_map]
  | _ => cases h

/-- **Reading is recognising forms**: data are a form exactly if their fields can be read and give
every slot what it asks for. That takes a part that must be given, or data that are no moment, which
would count for a record without any parts. -/
theorem exists_fields?_iff (hnames : (slots.map Slot.name).Nodup)
    (hparts : (∃ slot ∈ slots, ¬ slot.MayLack) ∨ ∀ written, data ≠ moment written) :
    (∃ values, data.fields? false (slots.map Slot.name) = some values ∧
      List.Forall₂ Slot.Fills slots values) ↔ Form slots data := by
  cases data with
  | record fields =>
    rw [form_record_iff hnames, fields?_record]
    split_ifs with hrepeated
    · obtain ⟨name, hname, hcount⟩ := hrepeated
      refine iff_of_false (by simp) fun h => ?_
      exact absurd (h.1 name hname) (Nat.not_le.mpr hcount)
    · have hcount : ∀ name ∈ slots.map Slot.name, (fields.map Prod.fst).count name ≤ 1 :=
        fun name hname => Nat.not_lt.mp fun hlt => hrepeated ⟨name, hname, hlt⟩
      rw [and_iff_right hcount]
      simp only [Option.some.injEq, exists_eq_left', List.map_map, List.forall₂_map_right_iff,
        List.forall₂_same, Function.comp_apply]
  | list items =>
    rw [form_list_iff, listed_iff, fields?, List.length_map]
    by_cases hlength : slots.length < items.length
    · simp [hlength, Nat.not_le.mpr hlength]
    · simp [hlength, Nat.not_lt.mp hlength]
  | moment written =>
    refine iff_of_false ?_ (fun h => by cases h)
    -- a moment is read as a record without fields, so a slot that needs something stays empty
    obtain ⟨slot, hslot, hneeded⟩ := hparts.resolve_right fun h => h written rfl
    rintro ⟨values, hvalues, hfills⟩
    obtain rfl := Option.some_inj.mp hvalues
    rw [List.map_map, List.forall₂_map_right_iff, List.forall₂_same] at hfills
    exact hneeded (hfills slot hslot)
  | _ =>
    refine iff_of_false ?_ (fun h => by cases h)
    rintro ⟨values, hvalues, -⟩
    cases hvalues

/-! ### What slots ask for -/

/-- Whether a value is neither a text nor made of others: null, a truth value or a number. -/
def IsBare : Data → Prop
  | null | flag _ | number _ => True
  | _ => False

namespace Slot

variable {name : String} {given : Option Data}

/-- A slot for a text is filled by a text alone. -/
theorem fills_text {value : String} :
    (Slot.text name value).Fills given ↔ need text? given = some value := by
  cases given with
  | none => exact iff_of_false id (Option.some_ne_none _).symm
  | some data => cases data <;> simp [Fills, Slot.text, need, text?]

/-- A slot for a text that may be missing is filled by a text, or by nothing for the empty one. -/
theorem fills_textOrEmpty {value : String} :
    (Slot.textOrEmpty name value).Fills given ↔ orElse text? "" given = some value := by
  cases given with
  | none => simp [Fills, Slot.textOrEmpty, orElse, eq_comm]
  | some data => cases data <;> simp [Fills, Slot.textOrEmpty, orElse, text?]

/-- A slot for items is filled by a list of them, or by nothing for none. -/
theorem fills_items {β : Type} {read? : Data → Option β} {Is : β → Data → Prop}
    (h : ∀ data value, read? data = some value ↔ Is value data) {values : List β} :
    (Slot.items name Is values).Fills given ↔ orElse (listOf read?) [] given = some values := by
  cases given with
  | none => simp [Fills, Slot.items, orElse, eq_comm]
  | some data =>
    simp only [Fills, Slot.items, orElse, listOf_eq_some_iff, h]
    exact exists_congr fun items => and_congr_right fun _ =>
      ⟨List.Forall₂.flip, List.Forall₂.flip⟩

/-- Whether nothing bare stands for a part. -/
def Plain (slot : Slot) : Prop := ∀ value, slot.Holds value → ¬ value.IsBare

@[simp]
theorem plain_text (name value : String) : (Slot.text name value).Plain := by
  rintro _ rfl
  exact id

@[simp]
theorem plain_textOrEmpty (name value : String) : (Slot.textOrEmpty name value).Plain :=
  plain_text name value

@[simp]
theorem plain_items {β : Type} (name : String) (Is : β → Data → Prop) (values : List β) :
    (Slot.items name Is values).Plain := by
  rintro _ ⟨items, rfl, -⟩
  exact id

/-- A slot for items holds the data of its values. -/
theorem holds_items_map {β : Type} {Is : β → Data → Prop} {toData : β → Data}
    (h : ∀ value, Is value (toData value)) (values : List β) :
    (Slot.items name Is values).Holds (list (values.map toData)) := by
  refine ⟨_, rfl, ?_⟩
  rw [List.forall₂_map_right_iff, List.forall₂_same]
  exact fun value _ => h value

end Slot

/-! ### Flaws -/

/-- What data give to a name: a record by the name, a list in the place of the name. -/
inductive Gives (names : List String) : Data → String → Data → Prop
  | record {fields : List (String × Data)} {name : String} {value : Data}
    (h : (name, value) ∈ fields) : Gives names (record fields) name value
  | list {items : List Data} {name : String} {value : Data}
    (h : (name, value) ∈ names.zip items) : Gives names (list items) name value

/-- What is among the items that data give to a name. -/
def HasItem (names : List String) (data : Data) (name : String) (item : Data) : Prop :=
  ∃ items, Gives names data name (list items) ∧ item ∈ items

/-- Data with a flaw: a record lacks a name that it must give or gives a known name twice, or
something bare is given to a known name. -/
inductive Flawed (needed names : List String) : Data → Prop
  | lacking {fields : List (String × Data)} {name : String} (hname : name ∈ needed)
    (h : name ∉ fields.map Prod.fst) : Flawed needed names (record fields)
  | repeated {fields : List (String × Data)} {name : String} (hname : name ∈ names)
    (h : 1 < (fields.map Prod.fst).count name) : Flawed needed names (record fields)
  | bare {data value : Data} {name : String} (hname : name ∈ names)
    (h : Gives names data name value) (hbare : value.IsBare) : Flawed needed names data

/-- Each item of a list holds what the slot at its place asks for. -/
theorem Listed.holds (h : Listed slots items) {name : String} {value : Data}
    (hmem : (name, value) ∈ (slots.map Slot.name).zip items) :
    ∃ slot ∈ slots, slot.name = name ∧ slot.Holds value := by
  induction h with
  | leftOut => simp at hmem
  | item hvalue _ ih =>
    rw [List.map_cons, List.zip_cons_cons] at hmem
    rcases List.mem_cons.mp hmem with heq | hmem
    · obtain ⟨rfl, rfl⟩ := Prod.mk.inj heq
      exact ⟨_, List.mem_cons_self .., rfl, hvalue⟩
    · obtain ⟨slot, hslot, h⟩ := ih hmem
      exact ⟨slot, List.mem_cons_of_mem _ hslot, h⟩

namespace Form

theorem of_written (h : Written slots fields) : Form slots (.record fields) :=
  .record h (fun _ hmem => absurd hmem List.not_mem_nil) (.of_eq (List.append_nil fields).symm)

/-- What a form gives to the name of a part is what the slot asks for. -/
theorem holds (h : Form slots data) {name : String} {value : Data}
    (hname : name ∈ slots.map Slot.name) (hgives : Gives (slots.map Slot.name) data name value) :
    ∃ slot ∈ slots, slot.name = name ∧ slot.Holds value := by
  cases hgives with
  | list hmem =>
    cases h with
    | list hlisted => exact hlisted.holds hmem
  | record hmem =>
    cases h with
    | record hgiven hothers hperm =>
      rcases List.mem_append.mp (hperm.mem_iff.mp hmem) with hmem | hmem
      · exact hgiven.holds hmem
      · exact absurd hname (hothers _ hmem)

/-- What is among the items that a form gives is a form of one of the values. -/
theorem exists_of_hasItem (h : Form slots data) (hnames : (slots.map Slot.name).Nodup) {β : Type}
    {name : String} {Is : β → Data → Prop} {values : List β}
    (hslot : Slot.items name Is values ∈ slots) {item : Data}
    (hitem : HasItem (slots.map Slot.name) data name item) : ∃ value, Is value item := by
  obtain ⟨items, hgives, hmem⟩ := hitem
  obtain ⟨slot, hother, hname, hholds⟩ := h.holds (List.mem_map_of_mem hslot) hgives
  obtain rfl := List.inj_on_of_nodup_map hnames hother hslot hname
  obtain ⟨_, heq, hitems⟩ := hholds
  obtain rfl := Data.list.inj heq
  exact exists_of_mem_forall₂ hitems hmem

/-- No form has a flaw, if nothing that is needed may be left out and nothing bare is asked for. -/
theorem not_flawed (h : Form slots data) (hnames : (slots.map Slot.name).Nodup)
    {needed : List String}
    (hneeded : ∀ name ∈ needed, ∃ slot ∈ slots, slot.name = name ∧ ¬ slot.MayLack)
    (hplain : ∀ slot ∈ slots, slot.Plain) : ¬ Flawed needed (slots.map Slot.name) data := by
  rintro (⟨hname, hnot⟩ | ⟨hname, hcount⟩ | ⟨hname, hgives, hvalue⟩)
  · obtain ⟨slot, hslot, rfl, hlack⟩ := hneeded _ hname
    have hfills := ((form_record_iff hnames).mp h).2 slot hslot
    rw [lookup_eq_none hnot] at hfills
    exact hlack hfills
  · exact absurd (((form_record_iff hnames).mp h).1 _ hname) (Nat.not_le.mpr hcount)
  · obtain ⟨slot, hslot, -, hholds⟩ := h.holds hname hgives
    exact hplain slot hslot _ hholds hvalue

end Form

end Wireframe.Data
