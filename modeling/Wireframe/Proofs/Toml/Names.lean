import Mathlib.Data.List.Nodup
import Wireframe.Proofs.Toml.Tables

/-!
# Names in what is read

No record in what is read gives a name to two of its fields, however deep it is
(`Toml.distinct_of_read?`). Keys and headers put items in place one at a time, each where its name
stands already or behind all others (`Toml.put`), so every step keeps names apart; the records of
inline tables are made in the same way before they become values.
-/

namespace Wireframe

/-- Data in which no record gives a name to two of its fields. -/
inductive Data.Distinct : Data → Prop
  | plain {data : Data} (hlist : ∀ items, data ≠ .list items)
      (hrecord : ∀ fields, data ≠ .record fields) : Distinct data
  | list {items : List Data} (hitems : ∀ item ∈ items, Distinct item) : Distinct (.list items)
  | record {fields : List (String × Data)} (hnames : (fields.map Prod.fst).Nodup)
      (hvalues : ∀ field ∈ fields, Distinct field.2) : Distinct (.record fields)

namespace Data

/-- Names are given once in a list if they are in each of its items. -/
theorem distinct_list_iff {items : List Data} :
    Distinct (.list items) ↔ ∀ item ∈ items, Distinct item := by
  refine ⟨fun h => ?_, .list⟩
  cases h with
  | plain hlist => exact absurd rfl (hlist items)
  | list hitems => exact hitems

/-- A record gives names once if its own names differ and the value of every field does. -/
theorem distinct_record_iff {fields : List (String × Data)} : Distinct (.record fields) ↔
    (fields.map Prod.fst).Nodup ∧ ∀ field ∈ fields, Distinct field.2 := by
  refine ⟨fun h => ?_, fun h => .record h.1 h.2⟩
  cases h with
  | plain _ hrecord => exact absurd rfl (hrecord fields)
  | record hnames hvalues => exact ⟨hnames, hvalues⟩

theorem distinct_flag (value : Bool) : Distinct (.flag value) := .plain nofun nofun

theorem distinct_number (value : Numeral) : Distinct (.number value) := .plain nofun nofun

theorem distinct_text (value : String) : Distinct (.text value) := .plain nofun nofun

theorem distinct_moment (written : String) : Distinct (.moment written) := .plain nofun nofun

theorem distinct_foreign : Distinct .foreign := .plain nofun nofun

end Data

namespace Toml

open Data (Distinct distinct_list_iff distinct_record_iff)

variable {entries entries' : Entries} {name : String} {item : Item} {key : Key} {data : Data}

/-! ### Entries -/

/-- Entries that amount to a record of this kind. -/
def DistinctEntries (entries : Entries) : Prop := Distinct (.record (Item.fields entries))

/-- The data of a table, entry by entry. -/
theorem fields_eq_map (entries : Entries) :
    Item.fields entries = entries.map fun entry => (entry.1, entry.2.data) := by
  induction entries with
  | nil => rfl
  | cons entry entries ih => rw [Item.fields, List.map_cons, ih]

/-- The data of an array of tables, element by element. -/
theorem records_eq_map (elements : List Entries) :
    Item.records elements = elements.map fun entries => .record (Item.fields entries) := by
  induction elements with
  | nil => rfl
  | cons entries elements ih => rw [Item.records, List.map_cons, ih]

theorem distinctEntries_iff : DistinctEntries entries ↔
    (entries.map Prod.fst).Nodup ∧ ∀ entry ∈ entries, Distinct entry.2.data := by
  rw [DistinctEntries, distinct_record_iff, names_fields, fields_eq_map, List.forall_mem_map]

theorem distinctEntries_nil : DistinctEntries [] := distinctEntries_iff.mpr (by simp)

theorem distinct_tables_iff {elements : List Entries} :
    Distinct (Item.tables elements).data ↔ ∀ entries ∈ elements, DistinctEntries entries := by
  simp only [Item.data, distinct_list_iff, List.mem_reverse, records_eq_map, List.forall_mem_map,
    DistinctEntries]

theorem distinct_of_lookup (h : DistinctEntries entries)
    (hlookup : List.lookup name entries = some item) : Distinct item.data := by
  obtain ⟨before, after, rfl, -⟩ := List.lookup_eq_some_iff.mp hlookup
  exact (distinctEntries_iff.mp h).2 (name, item) (by simp)

/-- To put an item under a name that is there changes no name. -/
theorem names_put_of_mem (h : name ∈ entries.map Prod.fst) (item : Item) :
    (put entries name item).map Prod.fst = entries.map Prod.fst := by
  induction entries with
  | nil => cases h
  | cons entry entries ih =>
    rw [put]
    split
    case isTrue heq => rw [List.map_cons, List.map_cons, heq]
    case isFalse hne =>
      have hrest : name ∈ entries.map Prod.fst :=
        (List.mem_cons.mp h).resolve_left (Ne.symm hne)
      rw [List.map_cons, List.map_cons, ih hrest]

/-- After putting an item there are the old entries and the new one, and nothing else. -/
theorem mem_put {entry : String × Item} (h : entry ∈ put entries name item) :
    entry ∈ entries ∨ entry = (name, item) := by
  induction entries with
  | nil => exact .inr (List.mem_singleton.mp h)
  | cons first entries ih =>
    rw [put] at h
    split at h
    · rcases List.mem_cons.mp h with rfl | hrest
      · exact .inr rfl
      · exact .inl (List.mem_cons_of_mem _ hrest)
    · rcases List.mem_cons.mp h with rfl | hrest
      · exact .inl (List.mem_cons_self ..)
      · exact (ih hrest).imp_left (List.mem_cons_of_mem _)

/-- Putting an item in place keeps names apart. -/
theorem DistinctEntries.put (h : DistinctEntries entries) (hitem : Distinct item.data) :
    DistinctEntries (put entries name item) := by
  obtain ⟨hnames, hvalues⟩ := distinctEntries_iff.mp h
  refine distinctEntries_iff.mpr ⟨?_, fun entry hentry => ?_⟩
  · by_cases hname : name ∈ entries.map Prod.fst
    · rw [names_put_of_mem hname]
      exact hnames
    · rw [put_of_not_mem hname, List.map_append, List.map_singleton, ← List.concat_eq_append]
      exact hnames.concat hname
  · rcases mem_put hentry with hmem | rfl
    · exact hvalues entry hmem
    · exact hitem

/-! ### Steps -/

/-- Whether a change keeps names apart. -/
def KeepsDistinct (change : Entries → Option Entries) : Prop :=
  ∀ entries entries', DistinctEntries entries → change entries = some entries' →
    DistinctEntries entries'

/-- An assignment never gives one name twice: it refuses a name that is taken. -/
theorem keepsDistinct_assign (hdata : Distinct data) (key : Key) :
    KeepsDistinct (assign data key) := by
  intro entries entries' hentries h
  -- A table inside is new and empty, or it is one of the entries and so distinct as well.
  induction key generalizing entries entries' with
  | nil => cases h
  | cons name key ih =>
    cases key with
    | nil =>
      rw [assign] at h
      split at h
      · cases h
        exact hentries.put hdata
      · cases h
    | cons next key =>
      rw [assign] at h
      · split at h
        case h_1 =>
          obtain ⟨inner, hinner, rfl⟩ := Option.map_eq_some_iff.mp h
          exact hentries.put (ih _ _ distinctEntries_nil hinner)
        case h_2 hlookup =>
          obtain ⟨inner, hinner, rfl⟩ := Option.map_eq_some_iff.mp h
          exact hentries.put (ih _ _ (distinct_of_lookup hentries hlookup) hinner)
        case h_3 => cases h
      · exact List.cons_ne_nil _ _

/-- A table header never gives one name twice. -/
theorem keepsDistinct_openTable (name : String) : KeepsDistinct (openTable name) := by
  intro entries entries' hentries h
  rw [openTable] at h
  split at h
  case h_1 =>
    cases h
    exact hentries.put distinctEntries_nil
  case h_2 inner hlookup =>
    -- The table keeps its content, and only from now on it has a header of its own.
    cases h
    have hinner : DistinctEntries inner := distinct_of_lookup hentries hlookup
    exact hentries.put hinner
  case h_3 => cases h

/-- A header of an array's next element never gives one name twice. -/
theorem keepsDistinct_openElement (name : String) : KeepsDistinct (openElement name) := by
  intro entries entries' hentries h
  rw [openElement] at h
  split at h
  case h_1 =>
    cases h
    exact hentries.put (distinct_tables_iff.mpr (by simpa using distinctEntries_nil))
  case h_2 elements hlookup =>
    cases h
    have helements := distinct_tables_iff.mp (distinct_of_lookup hentries hlookup)
    exact hentries.put (distinct_tables_iff.mpr
      (List.forall_mem_cons.mpr ⟨distinctEntries_nil, helements⟩))
  case h_3 => cases h

/-- A change of the table that a key leads to keeps names apart around it as well. -/
theorem KeepsDistinct.within? {change : Entries → Option Entries} (hchange : KeepsDistinct change)
    (key : Key) : KeepsDistinct (within? change key) := by
  intro entries entries' hentries h
  induction key generalizing entries entries' with
  | nil => exact hchange _ _ hentries h
  | cons name key ih =>
    rw [Toml.within?] at h
    split at h
    case h_1 =>
      obtain ⟨inner, hinner, rfl⟩ := Option.map_eq_some_iff.mp h
      exact hentries.put (ih _ _ distinctEntries_nil hinner)
    case h_2 => cases h
    case h_3 hlookup | h_4 hlookup | h_5 hlookup =>
      obtain ⟨inner, hinner, rfl⟩ := Option.map_eq_some_iff.mp h
      exact hentries.put (ih _ _ (distinct_of_lookup hentries hlookup) hinner)
    case h_6 => cases h
    case h_7 last others hlookup =>
      -- Of an array only the last table changes.
      obtain ⟨inner, hinner, rfl⟩ := Option.map_eq_some_iff.mp h
      have helements := distinct_tables_iff.mp (distinct_of_lookup hentries hlookup)
      obtain ⟨hlast, hothers⟩ := List.forall_mem_cons.mp helements
      exact hentries.put (distinct_tables_iff.mpr
        (List.forall_mem_cons.mpr ⟨ih _ _ hlast hinner, hothers⟩))

/-- A change below a path keeps names distinct if it does so at the path's end. -/
theorem keepsDistinct_atParent? {change : String → Entries → Option Entries}
    (hchange : ∀ name, KeepsDistinct (change name)) (key : Key) :
    KeepsDistinct (atParent? change key) := by
  intro entries entries' hentries h
  obtain ⟨name, -, h⟩ := Option.bind_eq_some_iff.mp h
  exact (hchange name).within? _ _ _ hentries h

/-! ### Values -/

/-- Assignments of distinct data, one after another, keep names distinct. -/
theorem keepsDistinct_assignAll {assignments : Assignments}
    (h : ∀ assignment ∈ assignments, Distinct assignment.2) :
    KeepsDistinct (assignAll assignments) := by
  intro entries entries' hentries hassign
  induction assignments generalizing entries with
  | nil =>
    cases hassign
    exact hentries
  | cons assignment assignments ih =>
    obtain ⟨hassignment, hassignments⟩ := List.forall_mem_cons.mp h
    obtain ⟨middle, hmiddle, hrest⟩ := Option.bind_eq_some_iff.mp hassign
    exact ih hassignments middle (keepsDistinct_assign hassignment _ _ _ hentries hmiddle) hrest

/-- A whole number holds no names. -/
theorem distinct_of_wholeData? {negative : Bool} {size : Nat}
    (h : wholeData? negative size = some data) : Distinct data := by
  rw [wholeData?] at h
  split_ifs at h <;> cases h
  all_goals first | exact Data.distinct_number _ | exact Data.distinct_foreign

theorem distinct_of_whole? {cs : List Char} (h : whole? cs = some data) : Distinct data := by
  unfold whole? at h
  split at h <;> obtain ⟨_, -, h⟩ := Option.bind_eq_some_iff.mp h <;> exact distinct_of_wholeData? h

theorem distinct_of_fraction? {cs : List Char} (h : fraction? cs = some data) : Distinct data := by
  have hexponent (exponent : Option Int) (numeral : Int → Numeral)
      (h : (exponent.bind fun e => if (numeral e).overflows then none
        else some (.number (numeral e))) = some data) : Distinct data := by
    obtain ⟨e, -, h⟩ := Option.bind_eq_some_iff.mp h
    split at h <;> cases h
    exact Data.distinct_number _
  simp only [fraction?, Option.bind_eq_bind, Option.bind_eq_some_iff] at h
  obtain ⟨whole, -, h⟩ := h
  -- There may be a point, and there may be an exponent.
  split at h <;> obtain ⟨point, -, h⟩ := Option.bind_eq_some_iff.mp h <;> split at h
  all_goals first
    | exact hexponent _ _ h
    | split at h <;> exact hexponent _ _ h

theorem distinct_of_special? {cs : List Char} (h : special? cs = some data) : Distinct data := by
  simp only [special?] at h
  split_ifs at h <;> cases h <;> exact Data.distinct_number _

/-- A value without brackets is no record. -/
theorem distinct_of_atom? {cs : List Char} (h : atom? cs = some data) : Distinct data := by
  rw [atom?] at h
  split_ifs at h
  · cases h
    exact Data.distinct_flag _
  · cases h
    exact Data.distinct_flag _
  · cases h
    exact Data.distinct_moment _
  · rcases Option.or_eq_some_iff.mp h with h | ⟨-, h⟩
    · exact distinct_of_special? h
    · rcases Option.or_eq_some_iff.mp h with h | ⟨-, h⟩
      · exact distinct_of_whole? h
      · exact distinct_of_fraction? h

/-- Whether no name is given twice in what is read in so many steps. -/
structure ReadsDistinct (fuel : Nat) : Prop where
  value : ∀ {cs data rest}, value? fuel cs = some (data, rest) → Distinct data
  items : ∀ {cs items rest}, items? fuel cs = some (items, rest) → ∀ item ∈ items, Distinct item
  assignments : ∀ {cs assignments rest}, assignments? fuel cs = some (assignments, rest) →
    ∀ assignment ∈ assignments, Distinct assignment.2

section Step

variable {fuel : Nat} {cs rest : List Char}

/-- The step for values: what is read is distinct if its parts are. -/
theorem ReadsDistinct.value_succ (ih : ReadsDistinct fuel)
    (h : value? (fuel + 1) cs = some (data, rest)) : Distinct data := by
  unfold value? at h
  split at h
  case h_1 =>
    obtain ⟨⟨items, rest⟩, hitems, heq⟩ := Option.map_eq_some_iff.mp h
    cases heq
    exact .list (ih.items hitems)
  case h_2 =>
    split at h
    · cases h
      exact distinctEntries_nil
    · obtain ⟨⟨assignments, rest⟩, hassignments, h⟩ := Option.bind_eq_some_iff.mp h
      obtain ⟨entries, hentries, heq⟩ := Option.map_eq_some_iff.mp h
      cases heq
      -- an inline table is put together by assignments, which refuse a name that is taken
      exact keepsDistinct_assignAll (ih.assignments hassignments) _ _ distinctEntries_nil hentries
  case h_3 | h_4 =>
    obtain ⟨found, -, heq⟩ := Option.map_eq_some_iff.mp h
    cases heq
    exact Data.distinct_text _
  case h_5 =>
    obtain ⟨found, hatom, heq⟩ := Option.map_eq_some_iff.mp h
    cases heq
    exact distinct_of_atom? hatom

/-- The step for the items of an array. -/
theorem ReadsDistinct.items_succ {items : List Data} (ih : ReadsDistinct fuel)
    (h : items? (fuel + 1) cs = some (items, rest)) : ∀ item ∈ items, Distinct item := by
  unfold items? at h
  split at h
  · cases h
    exact List.forall_mem_nil _
  · split at h
    · cases h
    · next hvalue =>
      split at h
      · cases h
        exact List.forall_mem_singleton.mpr (ih.value hvalue)
      · obtain ⟨⟨items, rest⟩, hitems, heq⟩ := Option.map_eq_some_iff.mp h
        cases heq
        exact List.forall_mem_cons.mpr ⟨ih.value hvalue, ih.items hitems⟩
      · cases h

/-- The step for the assignments of an inline table. -/
theorem ReadsDistinct.assignments_succ {assignments : Assignments} (ih : ReadsDistinct fuel)
    (h : assignments? (fuel + 1) cs = some (assignments, rest)) :
    ∀ assignment ∈ assignments, Distinct assignment.2 := by
  unfold assignments? at h
  split at h
  · cases h
  · split at h
    · cases h
    · next hvalue =>
      split at h
      · cases h
        exact List.forall_mem_singleton.mpr (ih.value hvalue)
      · obtain ⟨⟨assignments, rest⟩, hassignments, heq⟩ := Option.map_eq_some_iff.mp h
        cases heq
        exact List.forall_mem_cons.mpr ⟨ih.value hvalue, ih.assignments hassignments⟩
      · cases h
  · cases h

/-- No value that is read gives one name twice, whatever the fuel. -/
theorem readsDistinct (fuel : Nat) : ReadsDistinct fuel := by
  induction fuel with
  | zero => exact ⟨nofun, nofun, nofun⟩
  | succ fuel ih => exact ⟨ih.value_succ, ih.items_succ, ih.assignments_succ⟩

end Step

/-! ### Texts -/

/-- Whether the data that a statement gives to a key, if it does, give no name twice. -/
def Statement.Distinct : Statement → Prop
  | .assignment _ data => data.Distinct
  | _ => True

/-- No statement that is read gives one name twice in its value. -/
theorem distinct_of_statement? {fuel : Nat} {cs rest : List Char} {statement : Statement}
    (h : statement? fuel cs = some (statement, rest)) : statement.Distinct := by
  unfold statement? at h
  split at h
  case h_1 | h_2 =>
    split at h <;> cases h
    trivial
  case h_3 =>
    split at h
    · obtain ⟨⟨data, rest⟩, hdata, heq⟩ := Option.map_eq_some_iff.mp h
      cases heq
      exact (readsDistinct fuel).value hdata
    · cases h

/-- No file that is read gives one name twice in the value of a statement. -/
theorem distinct_of_statements? {fuel lines : Nat} {cs : List Char} {statements : List Statement}
    (h : statements? fuel lines cs = some statements) :
    ∀ statement ∈ statements, statement.Distinct := by
  induction lines generalizing cs statements with
  | zero => cases h
  | succ lines ih =>
    rw [statements?] at h
    split at h
    · cases h
      exact List.forall_mem_nil _
    · split at h
      · exact ih h
      · obtain ⟨⟨statement, rest⟩, hstatement, h⟩ := Option.bind_eq_some_iff.mp h
        obtain ⟨rest, -, h⟩ := Option.bind_eq_some_iff.mp h
        obtain ⟨statements, hstatements, rfl⟩ := Option.map_eq_some_iff.mp h
        exact List.forall_mem_cons.mpr ⟨distinct_of_statement? hstatement, ih hstatements⟩

/-- Taking in a statement keeps names apart. -/
theorem distinct_of_add {assembly assembly' : Assembly} {statement : Statement}
    (hroot : DistinctEntries assembly.root) (hstatement : statement.Distinct)
    (h : assembly.add statement = some assembly') : DistinctEntries assembly'.root := by
  cases statement with
  | table key =>
    obtain ⟨root, hopen, rfl⟩ := Option.map_eq_some_iff.mp h
    exact keepsDistinct_atParent? keepsDistinct_openTable key _ _ hroot hopen
  | element key =>
    obtain ⟨root, hopen, rfl⟩ := Option.map_eq_some_iff.mp h
    exact keepsDistinct_atParent? keepsDistinct_openElement key _ _ hroot hopen
  | assignment key data =>
    obtain ⟨root, hassign, rfl⟩ := Option.map_eq_some_iff.mp h
    exact (keepsDistinct_assign hstatement key).within? _ _ _ hroot hassign

/-- Statements that are added one after another leave the whole file distinct. -/
theorem distinct_of_foldlM_add {assembly assembly' : Assembly} {statements : List Statement}
    (hroot : DistinctEntries assembly.root)
    (hstatements : ∀ statement ∈ statements, statement.Distinct)
    (h : statements.foldlM Assembly.add assembly = some assembly') :
    DistinctEntries assembly'.root := by
  induction statements generalizing assembly with
  | nil =>
    cases h
    exact hroot
  | cons statement statements ih =>
    obtain ⟨hstatement, hstatements⟩ := List.forall_mem_cons.mp hstatements
    obtain ⟨middle, hadd, hrest⟩ := Option.bind_eq_some_iff.mp h
    exact ih (distinct_of_add hroot hstatement hadd) hstatements hrest

/-- **No name is given twice** in what is read, which is a record. -/
theorem distinct_of_read? {text : String} (h : read? text = some data) :
    Distinct data ∧ ∃ fields, data = .record fields := by
  obtain ⟨fields, hfields, rfl⟩ := Option.map_eq_some_iff.mp h
  obtain ⟨statements, hstatements, hassemble⟩ := Option.bind_eq_some_iff.mp hfields
  obtain ⟨assembly, hassembly, rfl⟩ := Option.map_eq_some_iff.mp hassemble
  exact ⟨distinct_of_foldlM_add distinctEntries_nil (distinct_of_statements? hstatements) hassembly,
    _, rfl⟩

end Toml

end Wireframe
