import Wireframe.Proofs.Json.Atoms

/-!
# Written JSON read back

Data that have been written as JSON, on one line or spread over several, are read back as they were
(`Json.read?_write`). That takes data which have a notation of their own (`Json.Writable`): a date,
a time or something foreign is written as something else.

A value is read from the head of a list, and the step that reads it leaves out the white space in
front of it. So the gaps between the parts of a value never matter, and it is enough to know what a
written value begins with (`Json.exists_write_eq_cons`). The bound on the steps that a reader is
given is large enough as soon as it is the length of what has been written.
-/

namespace Wireframe.Json

mutual

/-- Data that are written with a notation of their own. -/
def Writable : Data → Prop
  | .null => True
  | .flag _ => True
  | .number numeral => numeral.Normal ∧ ∃ negative coefficient exponent,
      numeral = .finite negative coefficient exponent
  | .text _ => True
  | .moment _ => False
  | .foreign => False
  | .list items => AllWritable items
  | .record fields => AllFieldsWritable fields

/-- Items that are such data. -/
def AllWritable : List Data → Prop
  | [] => True
  | item :: items => Writable item ∧ AllWritable items

/-- Fields with such data. -/
def AllFieldsWritable : List (String × Data) → Prop
  | [] => True
  | (_, value) :: fields => Writable value ∧ AllFieldsWritable fields

end

/-- A list of values is writable if each of them is. -/
theorem allWritable_map {α : Type} {toData : α → Data} (h : ∀ value, Writable (toData value))
    (values : List α) : AllWritable (values.map toData) := by
  induction values with
  | nil => trivial
  | cons value values ih => exact ⟨h value, ih⟩

variable {n depth : ℕ} {spread : Bool} {space cs rest : List Char}

/-! ### White space -/

theorem skipSpace_append (h : ∀ c ∈ space, isSpace c = true) (cs : List Char) :
    skipSpace (space ++ cs) = skipSpace cs :=
  List.dropWhile_append_of_pos h

theorem skipSpace_cons {c : Char} (h : isSpace c = false) (cs : List Char) :
    skipSpace (c :: cs) = c :: cs :=
  List.dropWhile_cons_of_neg (by simp [h])

/-- What the writer puts between values is space. -/
theorem isSpace_gap (spread : Bool) (depth : ℕ) : ∀ c ∈ gap spread depth, isSpace c = true := by
  intro c hc
  rw [gap] at hc
  split at hc
  · rcases List.mem_cons.mp hc with rfl | hc
    · rfl
    · rw [List.eq_of_mem_replicate hc]
      rfl
  · exact absurd hc List.not_mem_nil

/-- Space before a value makes no difference. -/
theorem value?_append (h : ∀ c ∈ space, isSpace c = true) (n : ℕ) (cs : List Char) :
    value? n (space ++ cs) = value? n cs := by
  cases n with
  | zero => rfl
  | succ n => rw [value?, value?, skipSpace_append h]

/-- Space before the items of a list makes no difference. -/
theorem items?_append (h : ∀ c ∈ space, isSpace c = true) (n : ℕ) (cs : List Char) :
    items? n (space ++ cs) = items? n cs := by
  cases n with
  | zero => rfl
  | succ n => rw [items?, items?, value?_append h]

/-- Space before the fields of a record makes no difference. -/
theorem fields?_append (h : ∀ c ∈ space, isSpace c = true) (n : ℕ) (cs : List Char) :
    fields? n (space ++ cs) = fields? n cs := by
  cases n with
  | zero => rfl
  | succ n => rw [fields?, fields?, name?, name?, skipSpace_append h]

/-- What begins a value or closes one does not carry on a number. -/
theorem stops_gap {c : Char} (h : c.isDigit = false ∧ c ∉ ['.', 'e', 'E']) (cs : List Char) :
    Stops (gap spread depth ++ c :: cs) := by
  rw [gap]
  split
  · exact stops_cons (by decide) _
  · exact stops_cons h cs

/-! ### Atoms -/

/-- Whether a character is neither white space nor ends a list. -/
def Begins (c : Char) : Prop := isSpace c = false ∧ c ≠ ']'

instance (c : Char) : Decidable (Begins c) := inferInstanceAs (Decidable (_ ∧ _))

/-- A digit or a minus sign begins a number and nothing else. -/
theorem begins_number {c : Char} (h : c = '-' ∨ c.isDigit = true) :
    Begins c ∧ ∀ d ∈ ['n', 't', 'f', '"', '[', '\x7b'], c ≠ d := by
  have hne (d : Char) (hd : d ≠ '-' ∧ d.isDigit = false) : c ≠ d := by
    rintro rfl
    rcases h with rfl | h
    · exact hd.1 rfl
    · exact Bool.false_ne_true (hd.2.symm.trans h)
  refine ⟨⟨?_, hne ']' (by decide)⟩, fun d hd => hne d ?_⟩
  · simp only [isSpace, Bool.or_eq_false_iff, beq_eq_false_iff_ne]
    exact ⟨⟨⟨hne ' ' (by decide), hne '\t' (by decide)⟩, hne '\n' (by decide)⟩,
      hne '\r' (by decide)⟩
  · simp only [List.mem_cons, List.not_mem_nil, or_false] at hd
    rcases hd with rfl | rfl | rfl | rfl | rfl | rfl <;> decide

/-- A number is a value. -/
theorem value?_number {numeral : Numeral} (h : number? cs = some (numeral, rest)) (n : ℕ) :
    value? (n + 1) cs = some (.number numeral, rest) := by
  obtain ⟨c, tail, rfl, hc⟩ := head_of_number? h
  obtain ⟨⟨hspace, -⟩, hne⟩ := begins_number hc
  simp only [List.forall_mem_cons, List.not_mem_nil, false_imp_iff, implies_true, and_true] at hne
  obtain ⟨hn, ht, hf, hquote, hlist, hrecord⟩ := hne
  have hword (w : Char) (hw : c ≠ w) (word : List Char) :
      afterWord? (w :: word) (c :: tail) = none := by
    rw [afterWord?, if_neg]
    simp [Ne.symm hw]
  have hatom : atom? (c :: tail) = some (.number numeral, rest) := by
    rw [atom?, show "null".toList = 'n' :: "ull".toList from rfl,
      show "true".toList = 't' :: "rue".toList from rfl,
      show "false".toList = 'f' :: "alse".toList from rfl, hword _ hn, hword _ ht, hword _ hf, h]
    rfl
  rw [value?, skipSpace_cons hspace]
  split
  · exact absurd (List.cons.inj ‹_›).1 hquote
  · exact absurd (List.cons.inj ‹_›).1 hlist
  · exact absurd (List.cons.inj ‹_›).1 hrecord
  · exact hatom

/-- A quoted text is read back as a value. -/
theorem value?_quoted (value : String) (n : ℕ) (rest : List Char) :
    value? (n + 1) (quoted value ++ rest) = some (.text value, rest) := by
  have hread (cs : List Char) : value? (n + 1) ('"' :: cs) =
      (units? cs).map fun found => (textData found.1, found.2) := rfl
  rw [quoted, List.cons_append, List.cons_append, List.append_assoc, List.singleton_append, hread,
    units?_escape, Option.map_some, textData_units]

theorem value?_null (n : ℕ) (rest : List Char) :
    value? (n + 1) ("null".toList ++ rest) = some (.null, rest) := rfl

theorem value?_flag (value : Bool) (n : ℕ) (rest : List Char) :
    value? (n + 1) ((if value then "true".toList else "false".toList) ++ rest) =
      some (.flag value, rest) := by
  cases value <;> rfl

/-! ### Lists -/

/-- A list is read if its items are. -/
theorem value?_list {c : Char} {items : List Data} (hspace : ∀ c ∈ space, isSpace c = true)
    (hc : Begins c) (h : items? n (c :: cs) = some (items, rest)) :
    value? (n + 1) ('[' :: (space ++ c :: cs)) = some (.list items, rest) := by
  rw [value?, skipSpace_cons (by decide)]
  simp only [skipSpace_append hspace, skipSpace_cons hc.1]
  split
  · rename_i heq
    exact absurd (List.cons.inj heq).1 hc.2
  · rw [h, Option.map_some]

/-- The last item stands before the closing bracket. -/
theorem items?_last {item : Data} (hspace : ∀ c ∈ space, isSpace c = true)
    (h : value? n cs = some (item, space ++ ']' :: rest)) :
    items? (n + 1) cs = some ([item], rest) := by
  rw [items?, h]
  dsimp only
  rw [skipSpace_append hspace, skipSpace_cons rfl]
  rfl

/-- An item before a comma is followed by further items. -/
theorem items?_more {item : Data} {items : List Data} {more : List Char}
    (h : value? n cs = some (item, ',' :: more)) (hmore : items? n more = some (items, rest)) :
    items? (n + 1) cs = some (item :: items, rest) := by
  have hread : items? (n + 1) cs = (items? n more).map fun found => (item :: found.1, found.2) := by
    rw [items?, h]
    rfl
  rw [hread, hmore, Option.map_some]

/-! ### Records -/

/-- A field with the units of its name. -/
def unitField (field : String × Data) : List ℕ × Data := (field.1.toList.map Char.toNat, field.2)

/-- Fields whose names are kept as units make up the record of these fields. -/
theorem recordData_unitField (fields : List (String × Data)) :
    recordData (fields.map unitField) = .record fields := by
  have hnamed : namedFields? (fields.map unitField) = some fields := by
    induction fields with
    | nil => rfl
    | cons field fields ih =>
      rw [List.map_cons, unitField, namedFields?, textOfUnits?_map_toNat, ih]
      dsimp only
      rw [String.ofList_toList]
  rw [recordData, hnamed]

/-- A record is read if its fields are. -/
theorem value?_record {fields : List (String × Data)} (hspace : ∀ c ∈ space, isSpace c = true)
    (h : fields? n ('"' :: cs) = some (fields.map unitField, rest)) :
    value? (n + 1) ('\x7b' :: (space ++ '"' :: cs)) = some (.record fields, rest) := by
  have hquote : isSpace '"' = false := by decide
  rw [value?, skipSpace_cons (by decide)]
  simp only [skipSpace_append hspace, skipSpace_cons hquote]
  change (fields? n ('"' :: cs)).map _ = _
  rw [h, Option.map_some, recordData_unitField]

/-- The name of a field is read, and then its value. -/
theorem exists_name?_quoted (name : String) (spread : Bool) (n : ℕ) (cs : List Char) :
    ∃ behind, name? (quoted name ++ (colon spread ++ cs)) =
      some (name.toList.map Char.toNat, behind) ∧ value? n behind = value? n cs := by
  have hname (behind : List Char) : name? (quoted name ++ ':' :: behind) =
      some (name.toList.map Char.toNat, behind) := by
    rw [quoted, List.cons_append, List.cons_append, List.append_assoc, List.singleton_append, name?,
      skipSpace_cons (by decide)]
    simp only [units?_escape, Option.bind_some]
    rfl
  cases spread with
  | false => exact ⟨cs, hname cs, rfl⟩
  | true =>
    have hspace : ∀ c ∈ [' '], isSpace c = true := List.forall_mem_singleton.mpr rfl
    exact ⟨' ' :: cs, hname _, value?_append hspace n cs⟩

/-- The last field stands before the closing brace. -/
theorem fields?_last {name : String} {value : Data} (hspace : ∀ c ∈ space, isSpace c = true)
    (h : value? n cs = some (value, space ++ '\x7d' :: rest)) :
    fields? (n + 1) (quoted name ++ (colon spread ++ cs)) =
      some ([unitField (name, value)], rest) := by
  obtain ⟨behind, hname, hvalue⟩ := exists_name?_quoted name spread n cs
  rw [fields?, hname]
  dsimp only
  rw [hvalue, h]
  dsimp only
  rw [skipSpace_append hspace, skipSpace_cons rfl]
  rfl

/-- A field before a comma is followed by further fields. -/
theorem fields?_more {name : String} {value : Data} {fields : List (List ℕ × Data)}
    {more : List Char} (h : value? n cs = some (value, ',' :: more))
    (hmore : fields? n more = some (fields, rest)) :
    fields? (n + 1) (quoted name ++ (colon spread ++ cs)) =
      some (unitField (name, value) :: fields, rest) := by
  obtain ⟨behind, hname, hvalue⟩ := exists_name?_quoted name spread n cs
  rw [fields?, hname]
  dsimp only
  rw [hvalue, h]
  change (fields? n more).map _ = _
  rw [hmore]
  rfl

/-! ### Values -/

/-- Whether data are read back wherever they have been written. -/
structure ReadsBack (data : Data) : Prop where
  begins : ∀ spread depth, ∃ c cs, write spread depth data = c :: cs ∧ Begins c
  value? : ∀ spread depth n rest, (write spread depth data).length ≤ n → Stops rest →
    value? n (write spread depth data ++ rest) = some (data, rest)

/-- The items of a list are read back, if each of them is. -/
theorem items?_write {item : Data} {items : List Data} (h : ∀ i ∈ item :: items, ReadsBack i)
    (hn : (write spread depth item ++ writeItems spread depth items).length < n) (outer : ℕ)
    (rest : List Char) :
    items? n (write spread depth item ++ (writeItems spread depth items ++
      (gap spread outer ++ ']' :: rest))) = some (item :: items, rest) := by
  induction items generalizing item n with
  | nil =>
    obtain ⟨n, rfl⟩ := Nat.exists_eq_succ_of_ne_zero (Nat.ne_zero_of_lt hn)
    rw [writeItems, List.append_nil] at hn
    rw [writeItems, List.nil_append]
    refine items?_last (isSpace_gap spread outer) ?_
    exact (h item (List.mem_cons_self ..)).value? spread depth n _ (by omega)
      (stops_gap (by decide) rest)
  | cons next items ih =>
    obtain ⟨n, rfl⟩ := Nat.exists_eq_succ_of_ne_zero (Nat.ne_zero_of_lt hn)
    obtain ⟨hitem, hitems⟩ := List.forall_mem_cons.mp h
    simp only [writeItems, List.length_append, List.length_cons] at hn
    have hnext := ih (n := n) hitems (by rw [List.length_append]; omega)
    rw [writeItems]
    simp only [List.cons_append, List.append_assoc]
    refine items?_more (hitem.value? spread depth n _ (by omega) (stops_cons (by decide) _)) ?_
    rw [items?_append (isSpace_gap spread depth), hnext]

/-- The fields of a record are read back, if the value of each of them is. -/
theorem fields?_write {field : String × Data} {fields : List (String × Data)}
    (h : ∀ f ∈ field :: fields, ReadsBack f.2)
    (hn : (write spread depth field.2 ++ writeFields spread depth fields).length < n) (outer : ℕ)
    (rest : List Char) :
    fields? n (quoted field.1 ++ (colon spread ++ (write spread depth field.2 ++
      (writeFields spread depth fields ++ (gap spread outer ++ '\x7d' :: rest))))) =
        some ((field :: fields).map unitField, rest) := by
  induction fields generalizing field n with
  | nil =>
    obtain ⟨n, rfl⟩ := Nat.exists_eq_succ_of_ne_zero (Nat.ne_zero_of_lt hn)
    rw [writeFields, List.append_nil] at hn
    rw [writeFields, List.nil_append]
    refine fields?_last (isSpace_gap spread outer) ?_
    exact (h field (List.mem_cons_self ..)).value? spread depth n _ (by omega)
      (stops_gap (by decide) rest)
  | cons next fields ih =>
    obtain ⟨n, rfl⟩ := Nat.exists_eq_succ_of_ne_zero (Nat.ne_zero_of_lt hn)
    obtain ⟨hfield, hfields⟩ := List.forall_mem_cons.mp h
    simp only [writeFields, List.length_append, List.length_cons] at hn
    -- the fuel pays for the field and its comma, and what is left is enough for the others
    have hnext := ih (n := n) hfields (by rw [List.length_append]; omega)
    rw [writeFields]
    simp only [List.cons_append, List.append_assoc]
    refine fields?_more (hfield.value? spread depth n _ (by omega) (stops_cons (by decide) _)) ?_
    rw [fields?_append (isSpace_gap spread depth), hnext]

namespace ReadsBack

/-- An atom is read back if one step reads it. -/
theorem of_atom {data : Data} {written : List Char} {c : Char} (hc : Begins c)
    (hwrite : ∀ spread depth, write spread depth data = c :: written)
    (hread : ∀ n rest, Stops rest →
      Json.value? (n + 1) (c :: written ++ rest) = some (data, rest)) :
    ReadsBack data := by
  refine ⟨fun spread depth => ⟨c, written, hwrite spread depth, hc⟩, ?_⟩
  intro spread depth n rest hn hrest
  rw [hwrite] at hn ⊢
  obtain ⟨n, rfl⟩ := Nat.exists_eq_succ_of_ne_zero (Nat.ne_zero_of_lt hn)
  exact hread n rest hrest

theorem flag (value : Bool) : ReadsBack (.flag value) := by
  cases value
  · exact of_atom (c := 'f') (by decide) (fun _ _ => rfl) fun n rest _ => value?_flag false n rest
  · exact of_atom (c := 't') (by decide) (fun _ _ => rfl) fun n rest _ => value?_flag true n rest

/-- A finite number in its normal form is read back. -/
theorem number {negative : Bool} {coefficient : ℕ} {exponent : ℤ}
    (h : (Numeral.finite negative coefficient exponent).Normal) :
    ReadsBack (.number (.finite negative coefficient exponent)) := by
  obtain ⟨c, written, htext, hc⟩ := head_of_number? (number?_text h stops_nil)
  rw [List.append_nil] at htext
  refine of_atom (begins_number hc).1 (fun _ _ => htext) fun n rest hrest => ?_
  rw [← htext]
  exact value?_number (number?_text h hrest) n

/-- A list is read back if its items are. -/
theorem list {items : List Data} (h : ∀ item ∈ items, ReadsBack item) :
    ReadsBack (.list items) := by
  cases items with
  | nil => exact of_atom (c := '[') (by decide) (fun _ _ => rfl) fun _ _ _ => rfl
  | cons item items =>
    refine ⟨fun spread depth => ⟨'[', _, by rw [write]; rfl, by decide⟩, ?_⟩
    intro spread depth n rest hn _
    obtain ⟨c, written, hwritten, hc⟩ :=
      (h item (List.mem_cons_self ..)).begins spread (depth + 1)
    rw [write] at hn ⊢
    simp only [List.length_append, List.length_cons] at hn
    obtain ⟨n, rfl⟩ := Nat.exists_eq_succ_of_ne_zero (by omega : n ≠ 0)
    have hlength :
        (write spread (depth + 1) item ++ writeItems spread (depth + 1) items).length < n := by
      rw [List.length_append]
      omega
    have hitems := items?_write h hlength depth rest
    rw [hwritten] at hitems ⊢
    simp only [List.cons_append, List.append_assoc, List.nil_append] at hitems ⊢
    exact value?_list (isSpace_gap spread (depth + 1)) hc hitems

/-- A record is read back if the values of its fields are. -/
theorem record {fields : List (String × Data)} (h : ∀ field ∈ fields, ReadsBack field.2) :
    ReadsBack (.record fields) := by
  cases fields with
  | nil => exact of_atom (c := '\x7b') (by decide) (fun _ _ => rfl) fun _ _ _ => rfl
  | cons field fields =>
    refine ⟨fun spread depth => ⟨'\x7b', _, by rw [write]; rfl, by decide⟩, ?_⟩
    intro spread depth n rest hn _
    rw [write] at hn ⊢
    simp only [List.length_append, List.length_cons] at hn
    obtain ⟨n, rfl⟩ := Nat.exists_eq_succ_of_ne_zero (by omega : n ≠ 0)
    have hlength : (write spread (depth + 1) field.2 ++
        writeFields spread (depth + 1) fields).length < n := by
      rw [List.length_append]
      omega
    have hfields := fields?_write h hlength depth rest
    rw [quoted] at hfields ⊢
    simp only [List.cons_append, List.append_assoc, List.nil_append] at hfields ⊢
    exact value?_record (isSpace_gap spread (depth + 1)) hfields

end ReadsBack

mutual

/-- Data with a notation of their own are read back. -/
theorem readsBack (data : Data) (h : Writable data) : ReadsBack data := by
  match data with
  | .null =>
    exact .of_atom (c := 'n') (by decide) (fun _ _ => rfl) fun n rest _ => value?_null n rest
  | .flag value => exact .flag value
  | .number numeral =>
    obtain ⟨hnormal, negative, coefficient, exponent, rfl⟩ := h
    exact .number hnormal
  | .text value =>
    exact .of_atom (by decide) (fun _ _ => rfl) fun n rest _ => value?_quoted value n rest
  | .list items => exact .list (readsBack_items items h)
  | .record fields => exact .record (readsBack_fields fields h)

/-- Writable items are read back. -/
theorem readsBack_items (items : List Data) (h : AllWritable items) :
    ∀ item ∈ items, ReadsBack item := by
  match items with
  | [] => exact fun _ hitem => absurd hitem List.not_mem_nil
  | item :: items =>
    exact List.forall_mem_cons.mpr ⟨readsBack item h.1, readsBack_items items h.2⟩

/-- Writable fields are read back. -/
theorem readsBack_fields (fields : List (String × Data)) (h : AllFieldsWritable fields) :
    ∀ field ∈ fields, ReadsBack field.2 := by
  match fields with
  | [] => exact fun _ hfield => absurd hfield List.not_mem_nil
  | (name, value) :: fields =>
    exact List.forall_mem_cons.mpr ⟨readsBack value h.1, readsBack_fields fields h.2⟩

end

/-- **What has been written is read back**, with white space behind it or not. -/
theorem read?_write {data : Data} (h : Writable data) (spread : Bool)
    (hspace : ∀ c ∈ space, isSpace c = true) :
    read? (String.ofList (write spread 0 data ++ space)) = some data := by
  have hstops : Stops space := by
    cases space with
    | nil => exact stops_nil
    | cons c cs =>
      have hc := hspace c (List.mem_cons_self ..)
      simp only [isSpace, Bool.or_eq_true, beq_iff_eq] at hc
      rcases hc with ((rfl | rfl) | rfl) | rfl <;> exact stops_cons (by decide) cs
  have hskip : skipSpace space = [] := List.dropWhile_eq_nil_iff.mpr hspace
  have hvalue := (readsBack data h).value? spread 0
    (2 * (write spread 0 data ++ space).length + 2) space (by rw [List.length_append]; omega) hstops
  simp only [read?, String.toList_ofList, hvalue, hskip, List.isEmpty_nil, if_true]

/-! ### What is never read -/

/-- JSON has no moments of time. -/
theorem value?_ne_moment {data : Data} (h : value? n cs = some (data, rest)) (written : String) :
    data ≠ .moment written := by
  have htext (units : List ℕ) : textData units ≠ .moment written := by
    rw [textData]
    split <;> simp
  have hrecord (fields : List (List ℕ × Data)) : recordData fields ≠ .moment written := by
    rw [recordData]
    split <;> simp
  cases n with
  | zero => exact absurd h (Option.some_ne_none _).symm
  | succ n =>
    rintro rfl
    -- one case for each character that a value may begin with
    unfold value? at h
    split at h
    · obtain ⟨found, -, heq⟩ := Option.map_eq_some_iff.mp h
      exact htext _ (Prod.mk.inj heq).1
    · split at h
      · cases h
      · obtain ⟨found, -, heq⟩ := Option.map_eq_some_iff.mp h
        cases heq
    · split at h
      · cases h
      · obtain ⟨found, -, heq⟩ := Option.map_eq_some_iff.mp h
        exact hrecord _ (Prod.mk.inj heq).1
    · unfold atom? at h
      split at h
      · cases h
      · cases h
      · cases h
      · obtain ⟨found, -, heq⟩ := Option.map_eq_some_iff.mp h
        cases heq

/-- No text is read as a moment. -/
theorem read?_ne_moment {text : String} {data : Data} (h : read? text = some data)
    (written : String) : data ≠ .moment written := by
  simp only [read?] at h
  split at h
  · next hvalue =>
    obtain ⟨-, heq⟩ := Option.ite_none_right_eq_some.mp h
    obtain rfl := Option.some_inj.mp heq
    exact value?_ne_moment hvalue written
  · cases h

end Wireframe.Json
