import Wireframe.Proofs.Data
import Wireframe.Proofs.Toml.Statements
import Wireframe.Toml.Reader

/-!
# Written tables read back

The text of a table names its fields in an order of its own: first those that are no tables, then
the tables. Apart from that, what is written is read back (`Toml.read?_write`). While the statements
of a text are put together, every table on the way to the one at hand has been opened by a header
and is the last entry of the table around it, so a state is the entries of the table at hand in such
surroundings (`Toml.plug`).
-/

namespace Wireframe.Toml

/-! ### Tables -/

mutual

/-- Data that are written as the value of a field, or as a table of their own, and read back. -/
def Writable : Data → Prop
  | .record fields => (fields.map Prod.fst).Nodup ∧ AllWritable fields
  | .null => False
  | .flag _ => False
  | .number numeral => Inline (.number numeral)
  | .text value => Inline (.text value)
  | .moment _ => False
  | .foreign => False
  | .list _ => False

/-- Fields with bare names and such data. -/
def AllWritable : List (String × Data) → Prop
  | [] => True
  | (name, value) :: fields => IsBare name ∧ Writable value ∧ AllWritable fields

end

/-- The fields that are not written as tables. -/
def plainFields : List (String × Data) → List (String × Data)
  | [] => []
  | (_, .record _) :: fields => plainFields fields
  | (name, value) :: fields => (name, value) :: plainFields fields

mutual

/-- The fields that are written as tables, with those that are not tables first in each. -/
def tableFields : List (String × Data) → List (String × Data)
  | [] => []
  | (name, value) :: fields => tableField name value ++ tableFields fields

/-- A field if it is written as a table. -/
def tableField (name : String) : Data → List (String × Data)
  | .record inner => [(name, .record (plainFields inner ++ tableFields inner))]
  | _ => []

end

/-- Fields in the order in which they are written. -/
def arranged (fields : List (String × Data)) : List (String × Data) :=
  plainFields fields ++ tableFields fields

/-! ### Statements of tables -/

/-- The statements for the fields that are not written as tables. -/
def assignments (fields : List (String × Data)) : List Statement :=
  (plainFields fields).map fun field => .assignment [field.1] field.2

mutual

/-- The statements for the fields that are written as tables. -/
def headers (path : Key) : List (String × Data) → List Statement
  | [] => []
  | (name, value) :: fields => header path name value ++ headers path fields

/-- The statements for a field if it is written as a table. -/
def header (path : Key) (name : String) : Data → List Statement
  | .record inner =>
    .table (path ++ [name]) :: (assignments inner ++ headers (path ++ [name]) inner)
  | _ => []

end

variable {fields : List (String × Data)} {path : Key} {name : String} {value : Data}

/-- What is writable and no table stands behind its key on one line. -/
theorem inline_of_writable (h : Writable value) (hvalue : ∀ fields, value ≠ .record fields) :
    Inline value := by
  cases value with
  | record fields => exact absurd rfl (hvalue fields)
  | number numeral => exact h
  | text value => exact h
  | _ => exact h.elim

/-- The plain values of a table are read back as assignments. -/
theorem reads_assignments (h : AllWritable fields) :
    Reads (assignmentLines fields) (assignments fields) := by
  induction fields using assignmentLines.induct with
  | case1 => exact .nil
  | case2 name inner fields ih =>
    rw [assignmentLines, assignments, plainFields]
    exact ih h.2.2
  | case3 name value fields hvalue ih =>
    obtain ⟨hname, hwritable, hfields⟩ := h
    have hline := reads_assignment hname (inline_of_writable hwritable hvalue)
    rw [assignmentLines, assignments, plainFields, List.map_cons]
    · have hreads := hline.append (ih hfields)
      simpa [assignments] using hreads
    · exact hvalue
    · exact hvalue

/-- The tables within a table are read back as headers, each with what it holds. -/
theorem reads_headers (hpath : ∀ name ∈ path, IsBare name) (h : AllWritable fields) :
    Reads (tableLines path fields) (headers path fields) := by
  refine tableLines.induct
    (fun path fields => (∀ name ∈ path, IsBare name) → AllWritable fields →
      Reads (tableLines path fields) (headers path fields))
    (fun path name value => (∀ name ∈ path, IsBare name) → IsBare name → Writable value →
      Reads (tableLine path name value) (header path name value))
    ?record ?plain ?nil ?cons path fields hpath h
  case record =>
    intro path name inner ih hpath hname hwritable
    -- a table is its header, its plain values and then its own tables, one level further in
    have hpath' : ∀ other ∈ path ++ [name], IsBare other := by
      simpa [or_imp, forall_and] using ⟨hpath, hname⟩
    have hheader := Reads.line.append (reads_header (List.concat_ne_nil _ _) hpath')
    have hreads := (hheader.append (reads_assignments hwritable.2)).append (ih hpath' hwritable.2)
    rw [tableLine, header]
    simpa using hreads
  case plain =>
    intro value path name hvalue _ _ _
    rw [tableLine, header]
    · exact .nil
    · exact hvalue
    · exact hvalue
  case nil => exact fun path _ _ => .nil
  case cons =>
    rintro path name value fields ihvalue ihfields hpath ⟨hname, hwritable, hfields⟩
    rw [tableLines, headers]
    exact (ihvalue hpath hname hwritable).append (ihfields hpath hfields)

/-- The file is read back statement by statement. -/
theorem statements?_write {fuel lines : Nat} (h : AllWritable fields)
    (hfuel : (write fields).toList.length ≤ fuel) (hlines : (write fields).toList.length < lines) :
    statements? fuel lines (write fields).toList =
      some (assignments fields ++ headers [] fields) := by
  rw [write, String.toList_ofList] at hfuel hlines ⊢
  exact ((reads_assignments h).append (reads_headers (fun _ hname => absurd hname List.not_mem_nil)
    h)).statements? hfuel hlines

/-! ### Entries -/

variable {entries before : Entries} {item : Item}

/-- A new name is put behind the others. -/
theorem put_of_not_mem (h : name ∉ entries.map Prod.fst) (item : Item) :
    put entries name item = entries ++ [(name, item)] := by
  induction entries with
  | nil => rfl
  | cons entry entries ih =>
    rw [List.map_cons, List.mem_cons, not_or] at h
    rw [put, if_neg (Ne.symm h.1), ih h.2, List.cons_append]

theorem lookup_append (h : name ∉ before.map Prod.fst) (item : Item) :
    List.lookup name (before ++ [(name, item)]) = some item := by
  rw [List.lookup_append, Data.lookup_eq_none h, List.lookup_cons_self, Option.none_or]

/-- The entry behind others is replaced if none of them has its name. -/
theorem put_append (h : name ∉ before.map Prod.fst) (old item : Item) :
    put (before ++ [(name, old)]) name item = before ++ [(name, item)] := by
  induction before with
  | nil => simp [put]
  | cons entry before ih =>
    rw [List.map_cons, List.mem_cons, not_or] at h
    rw [List.cons_append, put, if_neg (Ne.symm h.1), ih h.2, List.cons_append]

/-! ### Surroundings -/

/-- The entries of a table in the tables around it, outermost first: for each of these the entries
that are in front of the table inside it, and the name of that. -/
def plug : List (Entries × String) → Entries → Entries
  | [], entries => entries
  | (before, name) :: inner, entries => before ++ [(name, .table (plug inner entries))]

/-- Whether the tables around a table have no other entry of the name of the one inside them. -/
def Apart (around : List (Entries × String)) : Prop :=
  ∀ frame ∈ around, frame.2 ∉ frame.1.map Prod.fst

variable {around : List (Entries × String)}

/-- To go one table further in is to plug its entries into their place. -/
theorem plug_concat (around : List (Entries × String)) (before : Entries) (name : String)
    (entries : Entries) : plug (around ++ [(before, name)]) entries =
      plug around (before ++ [(name, .table entries)]) := by
  induction around with
  | nil => rfl
  | cons frame around ih => rw [List.cons_append, plug, plug, ih]

/-- A change of the table that a key leads to changes the entries of that table. -/
theorem within?_plug (h : Apart around) (change : Entries → Option Entries) (entries : Entries) :
    within? change (around.map Prod.snd) (plug around entries) =
      (change entries).map (plug around) := by
  induction around with
  | nil =>
    rw [List.map_nil, within?, plug]
    cases change entries <;> rfl
  | cons frame around ih =>
    obtain ⟨before, name⟩ := frame
    obtain ⟨hname, haround⟩ := List.forall_mem_cons.mp h
    have hlookup := lookup_append hname (.table (plug around entries))
    rw [List.map_cons, plug, within?, hlookup]
    dsimp only
    rw [ih haround, Option.map_map]
    cases change entries with
    | none => rfl
    | some changed => exact congrArg some (put_append hname _ _)

/-! ### Assembling -/

/-- The entries for the fields that are not written as tables. -/
def valueEntries (fields : List (String × Data)) : Entries :=
  (plainFields fields).map fun field => (field.1, .value field.2)

mutual

/-- The entries for the fields that are written as tables. -/
def tableEntries : List (String × Data) → Entries
  | [] => []
  | (name, value) :: fields => tableEntry name value ++ tableEntries fields

/-- The entry for a field if it is written as a table. -/
def tableEntry (name : String) : Data → Entries
  | .record inner => [(name, .table (valueEntries inner ++ tableEntries inner))]
  | _ => []

end

/-- The data of two runs of entries follow each other. -/
theorem fields_append (entries entries' : Entries) :
    Item.fields (entries ++ entries') = Item.fields entries ++ Item.fields entries' := by
  induction entries with
  | nil => rfl
  | cons entry entries ih => rw [List.cons_append, Item.fields, Item.fields, ih, List.cons_append]

/-- The entries for plain values hold the plain values. -/
theorem fields_valueEntries (fields : List (String × Data)) :
    Item.fields (valueEntries fields) = plainFields fields := by
  rw [valueEntries]
  induction plainFields fields with
  | nil => rfl
  | cons field fields ih => rw [List.map_cons, Item.fields, Item.data, ih]

/-- The entries for tables hold the tables. -/
theorem fields_tableEntries (fields : List (String × Data)) :
    Item.fields (tableEntries fields) = tableFields fields := by
  refine tableFields.induct
    (fun fields => Item.fields (tableEntries fields) = tableFields fields)
    (fun name value => Item.fields (tableEntry name value) = tableField name value)
    ?record ?plain ?nil ?cons fields
  case record =>
    intro name inner ih
    rw [tableEntry, tableField, Item.fields, Item.data, fields_append, fields_valueEntries, ih]
    rfl
  case plain =>
    intro value name hvalue
    rw [tableEntry, tableField]
    · rfl
    · exact hvalue
    · exact hvalue
  case nil => rfl
  case cons =>
    intro name value fields ihvalue ihfields
    rw [tableEntries, tableFields, fields_append, ihvalue, ihfields]

/-- Data keep the names of the entries. -/
theorem names_fields (entries : Entries) :
    (Item.fields entries).map Prod.fst = entries.map Prod.fst := by
  induction entries with
  | nil => rfl
  | cons entry entries ih => rw [Item.fields, List.map_cons, List.map_cons, ih]

theorem names_valueEntries (fields : List (String × Data)) :
    (valueEntries fields).map Prod.fst = (plainFields fields).map Prod.fst := by
  rw [← names_fields, fields_valueEntries]

/-- The entry for one table holds this table, and none stands for a plain value. -/
theorem fields_tableEntry (name : String) (value : Data) :
    Item.fields (tableEntry name value) = tableField name value := by
  cases value with
  | record inner =>
    rw [tableEntry, tableField, Item.fields, Item.data, fields_append, fields_valueEntries,
      fields_tableEntries]
    rfl
  | _ => rfl

theorem names_tableEntry (name : String) (value : Data) :
    (tableEntry name value).map Prod.fst = (tableField name value).map Prod.fst := by
  rw [← names_fields, fields_tableEntry]

/-- No field is lost or added by the order in which fields are written. -/
theorem names_arranged_perm (fields : List (String × Data)) :
    ((arranged fields).map Prod.fst).Perm (fields.map Prod.fst) := by
  rw [arranged]
  induction fields using assignmentLines.induct with
  | case1 => exact .nil
  | case2 name inner fields ih =>
    rw [plainFields, tableFields, tableField, List.singleton_append, List.map_append, List.map_cons,
      List.map_cons]
    rw [List.map_append] at ih
    exact List.perm_middle.trans (ih.cons name)
  | case3 name value fields hvalue ih =>
    have htable : tableField name value = [] := by
      rw [tableField]
      exact hvalue
    rw [plainFields, tableFields, htable, List.nil_append, List.cons_append, List.map_cons,
      List.map_cons]
    · exact ih.cons name
    · exact hvalue

/-- Each value goes to the end of the table at hand. -/
theorem foldlM_assignments (haround : Apart around) (entries : Entries)
    (plain : List (String × Data)) (hnodup : (entries.map Prod.fst ++ plain.map Prod.fst).Nodup) :
    (plain.map fun field => Statement.assignment [field.1] field.2).foldlM Assembly.add
        ⟨plug around entries, around.map Prod.snd⟩ =
      some ⟨plug around (entries ++ plain.map fun field => (field.1, .value field.2)),
        around.map Prod.snd⟩ := by
  induction plain generalizing entries with
  | nil => simp
  | cons field plain ih =>
    obtain ⟨name, value⟩ := field
    -- names differ, so each one is new to the table
    have hname : name ∉ entries.map Prod.fst := fun hmem =>
      (List.nodup_append.mp hnodup).2.2 name hmem name (List.mem_cons_self ..) rfl
    have hassign : assign value [name] entries = some (entries ++ [(name, .value value)]) := by
      rw [assign, Data.lookup_eq_none hname]
      exact congrArg some (put_of_not_mem hname _)
    have hadd : Assembly.add ⟨plug around entries, around.map Prod.snd⟩ (.assignment [name] value) =
        some ⟨plug around (entries ++ [(name, .value value)]), around.map Prod.snd⟩ := by
      rw [Assembly.add, within?_plug haround, hassign]
      rfl
    rw [List.map_cons, List.foldlM_cons, hadd]
    have hnodup' : ((entries ++ [(name, Item.value value)]).map Prod.fst ++
        plain.map Prod.fst).Nodup := by
      simpa using hnodup
    refine (ih _ hnodup').trans ?_
    simp

/-- The header of a table opens it at the end of the table around it. -/
theorem add_table (haround : Apart around) (hname : name ∉ before.map Prod.fst) (current : Key) :
    Assembly.add ⟨plug around before, current⟩ (.table (around.map Prod.snd ++ [name])) =
      some ⟨plug (around ++ [(before, name)]) [], around.map Prod.snd ++ [name]⟩ := by
  have hopen : openTable name before = some (before ++ [(name, .table [])]) := by
    rw [openTable, Data.lookup_eq_none hname]
    exact congrArg some (put_of_not_mem hname _)
  rw [Assembly.add, atParent?, List.getLast?_concat, Option.bind_some, List.dropLast_concat,
    within?_plug haround, hopen, plug_concat]
  rfl

/-- Whether statements put these entries at the end of the table at hand, whichever table the last
header has opened. -/
def Adds (around : List (Entries × String)) (statements : List Statement)
    (before added : Entries) : Prop :=
  ∀ current, ∃ current', statements.foldlM Assembly.add ⟨plug around before, current⟩ =
    some ⟨plug around (before ++ added), current'⟩

variable {statements statements' : List Statement} {added added' : Entries}

theorem Adds.nil (around : List (Entries × String)) (before : Entries) :
    Adds around [] before [] :=
  fun current => ⟨current, by simp⟩

/-- Two runs of statements add what each of them adds. -/
theorem Adds.append (h : Adds around statements before added)
    (h' : Adds around statements' (before ++ added) added') :
    Adds around (statements ++ statements') before (added ++ added') := by
  intro current
  obtain ⟨middle, hmiddle⟩ := h current
  obtain ⟨current', hcurrent⟩ := h' middle
  refine ⟨current', ?_⟩
  rw [List.foldlM_append, hmiddle, Option.bind_eq_bind, Option.bind_some, hcurrent,
    List.append_assoc]

/-- The header of a table, its values, and what fills the rest of it are one entry. -/
theorem Adds.table {inner : List (String × Data)} (haround : Apart around)
    (hname : name ∉ before.map Prod.fst) (hnodup : ((plainFields inner).map Prod.fst).Nodup)
    (h : Adds (around ++ [(before, name)]) statements (valueEntries inner) added) :
    Adds around (.table (around.map Prod.snd ++ [name]) :: (assignments inner ++ statements))
      before [(name, .table (valueEntries inner ++ added))] := by
  intro current
  have haround' : Apart (around ++ [(before, name)]) :=
    List.forall_mem_append.mpr ⟨haround, by simpa using hname⟩
  have hassign := foldlM_assignments haround' [] (plainFields inner) hnodup
  rw [List.map_append, List.map_cons, List.map_nil, List.nil_append, ← valueEntries,
    ← assignments] at hassign
  obtain ⟨current', hstatements⟩ := h (around.map Prod.snd ++ [name])
  refine ⟨current', ?_⟩
  rw [List.foldlM_cons, add_table haround hname, Option.bind_eq_bind, Option.bind_some,
    List.foldlM_append, hassign, Option.bind_eq_bind, Option.bind_some, hstatements, plug_concat]

/-- The headers below a table add its tables, at any depth: the induction over the data. -/
theorem adds_headers (haround : Apart around) (before : Entries) (h : AllWritable fields)
    (hnodup : (before.map Prod.fst ++ (tableFields fields).map Prod.fst).Nodup) :
    Adds around (headers (around.map Prod.snd) fields) before (tableEntries fields) := by
  -- the table that is open and those around it change from level to level, so the statement is for
  -- all of them
  refine tableLines.induct
    (fun path fields => ∀ around before, Apart around → path = around.map Prod.snd →
      AllWritable fields → (before.map Prod.fst ++ (tableFields fields).map Prod.fst).Nodup →
      Adds around (headers path fields) before (tableEntries fields))
    (fun path name value => ∀ around before, Apart around → path = around.map Prod.snd →
      Writable value → (before.map Prod.fst ++ (tableField name value).map Prod.fst).Nodup →
      Adds around (header path name value) before (tableEntry name value))
    ?record ?plain ?nil ?cons (around.map Prod.snd) fields around before haround rfl h hnodup
  case record =>
    rintro _ name inner ih around before haround rfl ⟨hinner, hwritable⟩ hnodup
    have hname : name ∉ before.map Prod.fst := fun hmem =>
      (List.nodup_append.mp hnodup).2.2 name hmem name (List.mem_cons_self ..) rfl
    have haround' : Apart (around ++ [(before, name)]) :=
      List.forall_mem_append.mpr ⟨haround, by simpa using hname⟩
    have hnames := (names_arranged_perm inner).nodup_iff.mpr hinner
    rw [arranged, List.map_append] at hnames
    rw [header, tableEntry]
    refine .table haround hname (List.nodup_append.mp hnames).1 ?_
    exact ih _ _ haround' (by simp) hwritable (by rw [names_valueEntries]; exact hnames)
  case plain =>
    intro value path name hvalue around before _ _ _ _
    rw [header, tableEntry]
    · exact .nil around before
    · exact hvalue
    · exact hvalue
  case nil =>
    intro path around before _ _ _ _
    rw [headers, tableEntries]
    exact .nil around before
  case cons =>
    rintro path name value fields ihvalue ihfields around before haround hpath
      ⟨-, hwritable, hfields⟩ hnodup
    rw [tableFields, List.map_append, ← List.append_assoc] at hnodup
    have hnames : (before ++ tableEntry name value).map Prod.fst =
        before.map Prod.fst ++ (tableField name value).map Prod.fst := by
      rw [List.map_append, names_tableEntry]
    rw [headers, tableEntries]
    exact (ihvalue around before haround hpath hwritable (List.nodup_append.mp hnodup).1).append
      (ihfields around _ haround hpath hfields (by rw [hnames]; exact hnodup))

/-- The statements that are written make up the data, plain values first. -/
theorem assemble?_statements (hnodup : (fields.map Prod.fst).Nodup) (h : AllWritable fields) :
    assemble? (assignments fields ++ headers [] fields) = some (arranged fields) := by
  have haround : Apart [] := fun _ hframe => absurd hframe List.not_mem_nil
  have hnames := (names_arranged_perm fields).nodup_iff.mpr hnodup
  rw [arranged, List.map_append] at hnames
  have hassign := foldlM_assignments haround [] (plainFields fields)
    (List.nodup_append.mp hnames).1
  obtain ⟨current, hheaders⟩ := adds_headers haround (valueEntries fields) h
    (by rw [names_valueEntries]; exact hnames) []
  rw [assemble?, List.foldlM_append, assignments]
  rw [List.map_nil, List.nil_append] at hassign
  rw [plug, plug, List.map_nil] at hheaders
  rw [plug, plug] at hassign
  rw [hassign, Option.bind_eq_bind, Option.bind_some]
  rw [← valueEntries, hheaders, Option.map_some, fields_append, fields_valueEntries,
    fields_tableEntries, arranged]

/-- A line with an assignment begins with its key. -/
theorem head?_assignmentLines (h : AllWritable fields) :
    ∀ c ∈ (assignmentLines fields).head?, isBareChar c = true := by
  induction fields using assignmentLines.induct with
  | case1 => exact fun _ hc => absurd hc nofun
  | case2 name inner fields ih =>
    rw [assignmentLines]
    exact ih h.2.2
  | case3 name value fields hvalue ih =>
    obtain ⟨c, cs, hcs⟩ := List.exists_cons_of_ne_nil h.1.ne
    rw [assignmentLines, keyPart_of_bare h.1, hcs]
    · intro d hd
      rw [← Option.some.inj hd]
      exact h.1.all c (hcs ▸ List.mem_cons_self ..)
    · exact hvalue

/-- The lines of a table begin with an empty one. -/
theorem head?_tableLines (path : Key) (fields : List (String × Data)) :
    ∀ c ∈ (tableLines path fields).head?, c = '\n' := by
  induction fields with
  | nil => exact fun _ hc => absurd hc nofun
  | cons field fields ih =>
    obtain ⟨name, value⟩ := field
    cases value with
    | record inner =>
      intro c hc
      exact (Option.some.inj hc).symm
    | _ => exact ih

/-- No text that is written begins with a mark. -/
theorem skipMark_write (h : AllWritable fields) :
    skipMark (write fields).toList = (write fields).toList := by
  rw [write, String.toList_ofList, skipMark]
  intro cs heq
  have hhead : '\ufeff' ∈ (assignmentLines fields ++ tableLines [] fields).head? := by
    rw [heq]
    rfl
  rw [List.head?_append, Option.mem_def, Option.or_eq_some_iff] at hhead
  rcases hhead with hhead | ⟨-, hhead⟩
  · exact absurd (head?_assignmentLines h _ hhead) (by decide)
  · exact absurd (head?_tableLines [] fields _ hhead) (by decide)

/-- What has been written is read back, in the order in which it is written. -/
theorem read?_write (hnodup : (fields.map Prod.fst).Nodup) (h : AllWritable fields) :
    read? (write fields) = some (.record (arranged fields)) := by
  rw [read?, skipMark_write h, statements?_write h (by omega) (by omega), Option.bind_some,
    assemble?_statements hnodup h, Option.map_some]

end Wireframe.Toml
