import Mathlib.Data.List.Count
import Mathlib.Data.List.Forall2
import Mathlib.Data.List.Nodup
import Wireframe.Data

/-!
# Reading structured data

A record is read if none of the names that matter is given twice (`Data.fields?_record`), whatever
else it holds and in whatever order; a list is read if every item is (`Data.listOf_eq_some_iff`).
-/

namespace Wireframe.Data

variable {fields : List (String × Data)} {names : List String} {surplus : Bool}

/-! ### Records -/

section Lookup

variable {β : Type} {name : String} {entries : List (String × β)}

theorem lookup_cons_of_ne {entry : String × β} (h : name ≠ entry.1) :
    List.lookup name (entry :: entries) = List.lookup name entries := by
  rw [List.lookup_cons, beq_false_of_ne h]

theorem lookup_eq_none (h : name ∉ entries.map Prod.fst) : List.lookup name entries = none := by
  induction entries with
  | nil => rfl
  | cons entry entries ih =>
    rw [List.map_cons, List.mem_cons, not_or] at h
    rw [lookup_cons_of_ne h.1, ih h.2]

end Lookup

/-- A name is repeated if it is given more than once. -/
theorem isRepeated_iff {name : String} :
    isRepeated fields name = true ↔ 1 < (fields.map Prod.fst).count name := by
  rw [List.count_eq_countP, List.countP_map, List.countP_eq_length_filter, isRepeated,
    decide_eq_true_iff]
  rfl

/-- The fields of a record are read by their names, unless one of these is given twice. -/
theorem fields?_record : fields? surplus names (record fields) =
    if ∃ name ∈ names, 1 < (fields.map Prod.fst).count name then none
    else some (names.map fun name => List.lookup name fields) := by
  simp only [fields?, List.any_eq_true, isRepeated_iff]

/-- A record that gives no name twice is read by what it gives to the names. -/
theorem fields?_of_nodup (h : (fields.map Prod.fst).Nodup) :
    fields? surplus names (record fields) =
      some (names.map fun name => List.lookup name fields) := by
  rw [fields?_record, if_neg]
  rintro ⟨name, -, hname⟩
  exact absurd (List.nodup_iff_count_le_one.mp h name) (Nat.not_le.mpr hname)

/-! ### Lists -/

section Lists

variable {β : Type} {read? : Data → Option β}

theorem exists_of_mem_forall₂ {α : Type} {Is : α → β → Prop} {values : List α} {items : List β}
    (h : List.Forall₂ Is values items) {item : β} (hitem : item ∈ items) :
    ∃ value, Is value item := by
  induction h with
  | nil => exact absurd hitem List.not_mem_nil
  | @cons value first values items hfirst _ ih =>
    rcases List.mem_cons.mp hitem with rfl | hitem
    · exact ⟨value, hfirst⟩
    · exact ih hitem

/-- Items are read if each of them is, one value for each. -/
theorem mapM_eq_some_iff {items : List Data} {values : List β} :
    items.mapM read? = some values ↔
      List.Forall₂ (fun item value => read? item = some value) items values := by
  induction items generalizing values with
  | nil => simp [eq_comm]
  | cons item items ih =>
    rw [List.mapM_cons, List.forall₂_cons_left_iff]
    simp only [Option.bind_eq_bind, Option.bind_eq_some_iff, ih, Option.pure_def,
      Option.some.injEq]
    grind

/-- Nothing but a list is read item by item, and all of its items are. -/
theorem listOf_eq_some_iff {data : Data} {values : List β} :
    listOf read? data = some values ↔
      ∃ items, data = list items ∧
        List.Forall₂ (fun item value => read? item = some value) items values := by
  cases data with
  | list items => simp [listOf, items?, mapM_eq_some_iff]
  | _ => simp [listOf, items?]

/-- A list of values is read if each of them is. -/
theorem listOf_map {write : β → Data} (h : ∀ value, read? (write value) = some value)
    (values : List β) : listOf read? (list (values.map write)) = some values := by
  rw [listOf_eq_some_iff]
  refine ⟨_, rfl, ?_⟩
  rw [List.forall₂_map_left_iff, List.forall₂_same]
  exact fun value _ => h value

end Lists

end Wireframe.Data
