import Wireframe.Proofs.Toml.Numbers
import Wireframe.Proofs.Toml.Texts

/-!
# Written lines read as statements

Every line that is written for a field or for the header of a table is read as one statement
(`Toml.reads_assignment`, `Toml.reads_header`), and lines one after the other are read one after the
other (`Toml.Reads.append`). Readers are bounded by numbers of steps; the length of a text is enough
for what it holds (`Toml.Reads`).
-/

namespace Wireframe.Toml

variable {cs rest more : List Char} {name : String} {path : Key} {fuel : Nat}

/-! ### Keys -/

/-- Whether a part of a key needs no quotes. -/
structure IsBare (name : String) : Prop where
  ne : name.toList ≠ []
  all : ∀ c ∈ name.toList, isBareChar c = true

theorem isBare_iff : IsBare name ↔ name.toList ≠ [] ∧ name.toList.all isBareChar = true := by
  rw [List.all_eq_true]
  exact ⟨fun h => ⟨h.ne, h.all⟩, fun h => ⟨h.1, h.2⟩⟩

instance (name : String) : Decidable (IsBare name) := decidable_of_iff' _ isBare_iff

/-- A bare name needs no quotes. -/
theorem keyPart_of_bare (h : IsBare name) : keyPart name = name.toList := by
  have hall : name.toList.all isBareChar = true := List.all_eq_true.mpr h.all
  have hempty : name.toList.isEmpty = false := by simpa using h.ne
  rw [keyPart]
  simp only [hempty, hall, Bool.not_false, Bool.and_self, if_true]

theorem skipBlanks_of_ne {c : Char} (hblank : c ≠ ' ') (htab : c ≠ '\t') (cs : List Char) :
    skipBlanks (c :: cs) = c :: cs := by
  rw [skipBlanks, List.dropWhile_cons_of_neg]
  simpa using ⟨hblank, htab⟩

/-- A character of a bare name is none that may not stand in one. -/
theorem ne_of_isBareChar {c d : Char} (h : isBareChar c = true) (hd : isBareChar d = false) :
    c ≠ d := by
  rintro rfl
  rw [h] at hd
  cases hd

/-- The part of a key that is not in quotes ends where a character is that cannot be in it. -/
theorem keyPart?_bare (h : IsBare name) (hmore : ∀ c cs, more = c :: cs → isBareChar c = false) :
    keyPart? (name.toList ++ more) = some (name, more) := by
  have hspan : (name.toList ++ more).span isBareChar = (name.toList, more) := by
    cases more with
    | nil => rw [List.append_nil, Text.span_of_all h.all]
    | cons c cs => exact Text.span_append_cons h.all (hmore c cs rfl) cs
  obtain ⟨c, cs, hcs⟩ := List.exists_cons_of_ne_nil h.ne
  have hc : isBareChar c = true := h.all c (hcs ▸ List.mem_cons_self ..)
  rw [keyPart?]
  · rw [hspan, hcs]
    dsimp only
    rw [← hcs, String.ofList_toList]
  · intro cs' heq
    rw [hcs, List.cons_append] at heq
    exact ne_of_isBareChar hc (by decide) (List.cons.inj heq).1
  · intro cs' heq
    rw [hcs, List.cons_append] at heq
    exact ne_of_isBareChar hc (by decide) (List.cons.inj heq).1

/-- No blank is skipped in front of a bare name. -/
theorem skipBlanks_bare (h : IsBare name) (cs : List Char) :
    skipBlanks (name.toList ++ cs) = name.toList ++ cs := by
  obtain ⟨c, ds, hds⟩ := List.exists_cons_of_ne_nil h.ne
  have hc : isBareChar c = true := h.all c (hds ▸ List.mem_cons_self ..)
  rw [hds, List.cons_append]
  exact skipBlanks_of_ne (ne_of_isBareChar hc (by decide)) (ne_of_isBareChar hc (by decide)) _

/-- A key that has been written is read back where something else follows. -/
theorem key?_key (hne : path ≠ []) (hpath : ∀ name ∈ path, IsBare name)
    (hmore : ∀ c cs, more = c :: cs → isBareChar c = false)
    (hpoint : ∀ cs, skipBlanks more ≠ '.' :: cs) (hfuel : path.length ≤ fuel) :
    key? fuel (key path ++ more) = some (path, skipBlanks more) := by
  induction path generalizing fuel with
  | nil => exact absurd rfl hne
  | cons name path ih =>
    obtain ⟨hname, hpath⟩ := List.forall_mem_cons.mp hpath
    cases fuel with
    | zero => cases hfuel
    | succ fuel =>
      cases path with
      | nil =>
        rw [key, keyPart_of_bare hname, key?, skipBlanks_bare hname, keyPart?_bare hname hmore,
          Option.bind_some]
        dsimp only
        split
        · rename_i heq
          exact absurd heq (hpoint _)
        · rfl
      | cons second others =>
        -- behind the first name stands a point, and the rest is a key again
        have hfollows : ∀ c cs, '.' :: key (second :: others) ++ more = c :: cs →
            isBareChar c = false := by
          rintro c cs heq
          rw [← (List.cons.inj heq).1]
          decide
        have hih := ih (List.cons_ne_nil _ _) hpath (Nat.le_of_succ_le_succ hfuel)
        rw [key, keyPart_of_bare hname, List.append_assoc, key?, skipBlanks_bare hname,
          keyPart?_bare hname hfollows, Option.bind_some]
        dsimp only
        rw [List.cons_append, skipBlanks_of_ne (by decide) (by decide)]
        · exact congrArg (Option.map fun found => (name :: found.1, found.2)) hih
        · nofun

/-- A key begins with a character of its first part. -/
theorem exists_key_eq_cons (hne : path ≠ []) (hpath : ∀ name ∈ path, IsBare name) :
    ∃ c cs, key path = c :: cs ∧ isBareChar c = true := by
  obtain ⟨name, others, rfl⟩ := List.exists_cons_of_ne_nil hne
  have hname := hpath name (List.mem_cons_self ..)
  obtain ⟨c, cs, hcs⟩ := List.exists_cons_of_ne_nil hname.ne
  have hc := hname.all c (hcs ▸ List.mem_cons_self ..)
  cases others with
  | nil => exact ⟨c, cs, by rw [key, keyPart_of_bare hname, hcs], hc⟩
  | cons second others =>
    refine ⟨c, cs ++ '.' :: key (second :: others), ?_, hc⟩
    rw [key, keyPart_of_bare hname, hcs, List.cons_append]
    nofun

/-- A key is at least as long as the path that it writes. -/
theorem length_le_length_key (hpath : ∀ name ∈ path, IsBare name) :
    path.length ≤ (key path).length := by
  induction path with
  | nil => exact Nat.le_refl 0
  | cons name path ih =>
    obtain ⟨hname, hpath⟩ := List.forall_mem_cons.mp hpath
    have hpos := List.length_pos_iff.mpr hname.ne
    cases path with
    | nil =>
      rw [key, keyPart_of_bare hname]
      exact hpos
    | cons second others =>
      have hrest := ih hpath
      rw [key, keyPart_of_bare hname]
      · simp only [List.length_append, List.length_cons] at hrest ⊢
        omega
      · nofun

/-! ### Values -/

/-- Data that are written on the line of their key and read back as they were. -/
inductive Inline : Data → Prop
  | number {numeral : Numeral} (normal : numeral.Normal) (ne_nan : numeral ≠ .nan)
      (fits : numeral.overflows = false) : Inline (.number numeral)
  | text (value : String) : Inline (.text value)

/-- A run of such characters is read up to the end of its line. -/
theorem atomRun_append (h : ∀ c ∈ cs, isAtomChar c = true) (rest : List Char) :
    atomRun (cs ++ '\n' :: rest) = (cs, '\n' :: rest) := by
  have hspan : (cs ++ '\n' :: rest).span isAtomChar = (cs, '\n' :: rest) :=
    Text.span_append_cons h (by decide) rest
  rw [atomRun, hspan]
  dsimp only
  split
  · rename_i heq
    cases (List.cons.inj heq).1
  · rfl

/-- A word, a number, a date or a time is a value up to the end of its line. -/
theorem value?_of_atom {data : Data} (h : ∀ c ∈ cs, isAtomChar c = true)
    (hatom : atom? cs = some data) (fuel : Nat) (rest : List Char) :
    value? (fuel + 1) (cs ++ '\n' :: rest) = some (data, '\n' :: rest) := by
  have hhead (d : Char) (hd : isAtomChar d = false) (hline : d ≠ '\n') (more : List Char) :
      cs ++ '\n' :: rest ≠ d :: more := by
    intro heq
    cases cs with
    | nil => exact hline (List.cons.inj heq).1.symm
    | cons c cs =>
      rw [← (List.cons.inj heq).1, h c (List.mem_cons_self ..)] at hd
      cases hd
  rw [value?, atomRun_append h, hatom]
  · rfl
  · exact hhead '[' (by decide) (by decide)
  · exact hhead '\x7b' (by decide) (by decide)
  · exact hhead '"' (by decide) (by decide)
  · exact hhead '\'' (by decide) (by decide)

/-- A text begins with a quote of one of the two kinds. -/
theorem exists_quoted_eq_cons (cs : List Char) :
    ∃ c more, quoted cs = c :: more ∧ (c = '"' ∨ c = '\'') := by
  rw [quoted]
  cases TextForm.choose cs
  · exact ⟨_, _, rfl, .inl rfl⟩
  · exact ⟨_, _, rfl, .inr rfl⟩
  · exact ⟨_, _, rfl, .inl rfl⟩
  · exact ⟨_, _, rfl, .inr rfl⟩

/-- A text is read back as a value, whatever form was chosen for it. -/
theorem value?_quoted (cs : List Char) (fuel : Nat) (rest : List Char) :
    value? (fuel + 1) (quoted cs ++ '\n' :: rest) =
      some (.text (String.ofList cs), '\n' :: rest) := by
  have hread : text? (quoted cs ++ '\n' :: rest) = some (cs, '\n' :: rest) :=
    text?_quoted cs nofun nofun
  obtain ⟨c, more, hc, hquote⟩ := exists_quoted_eq_cons cs
  rw [hc, List.cons_append] at hread ⊢
  rcases hquote with rfl | rfl
  · rw [value?, hread]
    rfl
  · rw [value?, hread]
    rfl

/-- A number is written with characters that numbers are made of, and it reads back. -/
theorem number_spec {numeral : Numeral} (normal : numeral.Normal) (ne_nan : numeral ≠ .nan)
    (fits : numeral.overflows = false) : (∀ c ∈ number numeral, isAtomChar c = true) ∧
      atom? (number numeral) = some (.number numeral) := by
  cases numeral with
  | nan => exact absurd rfl ne_nan
  | infinite negative => cases negative <;> exact ⟨List.all_eq_true.mp rfl, rfl⟩
  | finite negative coefficient exponent =>
    obtain ⟨whole, places, hparts, hnumber, -⟩ := exists_parts negative normal
    refine ⟨?_, atom?_finite normal fits⟩
    rw [hnumber]
    exact hparts.isAtomChar negative

/-- No blank is in front of a value. -/
theorem skipBlanks_inline {data : Data} (h : Inline data) (rest : List Char) :
    skipBlanks (inline data ++ '\n' :: rest) = inline data ++ '\n' :: rest := by
  cases h with
  | text value =>
    obtain ⟨c, more, hc, hquote⟩ := exists_quoted_eq_cons value.toList
    rw [inline, hc, List.cons_append]
    rcases hquote with rfl | rfl <;> exact skipBlanks_of_ne (by decide) (by decide) _
  | number normal ne_nan fits =>
    rename_i numeral
    obtain ⟨hall, -⟩ := number_spec normal ne_nan fits
    rw [inline]
    cases hnumber : number numeral with
    | nil => exact skipBlanks_of_ne (by decide) (by decide) _
    | cons c cs =>
      have hc : isAtomChar c = true := hall c (hnumber ▸ List.mem_cons_self ..)
      refine skipBlanks_of_ne ?_ ?_ _ <;> rintro rfl <;> exact absurd hc (by decide)

/-- What is written for a value is read back up to the end of the line. -/
theorem value?_inline {data : Data} (h : Inline data) (hfuel : 0 < fuel) (rest : List Char) :
    value? fuel (inline data ++ '\n' :: rest) = some (data, '\n' :: rest) := by
  obtain ⟨fuel, rfl⟩ := Nat.exists_eq_succ_of_ne_zero (Nat.ne_of_gt hfuel)
  cases h with
  | text value =>
    rw [inline, value?_quoted, String.ofList_toList]
  | number normal ne_nan fits =>
    obtain ⟨hall, hatom⟩ := number_spec normal ne_nan fits
    exact value?_of_atom hall hatom fuel rest

/-! ### Lines -/

/-- A line that begins with something else than a blank or a comment is a statement. -/
theorem statements?_cons {c : Char} (hblank : c ≠ ' ') (htab : c ≠ '\t') (hcomment : c ≠ '#')
    (hline : c ≠ '\n') (hreturn : c ≠ '\r') {statement : Statement}
    (h : statement? fuel (c :: cs) = some (statement, '\n' :: rest)) (lines : Nat) :
    statements? fuel (lines + 1) (c :: cs) =
      (statements? fuel lines rest).map (statement :: ·) := by
  have hskip : skipBlanks (c :: cs) = c :: cs := skipBlanks_of_ne hblank htab cs
  have hnone : afterStatement? (c :: cs) = none := by
    have hplain : skipComment (c :: cs) = c :: cs := by
      rw [skipComment]
      exact fun _ heq => hcomment (List.cons.inj heq).1
    rw [afterStatement?, hskip, hplain]
    dsimp only
    rw [afterLineEnd?]
    · exact fun _ heq => hline (List.cons.inj heq).1
    · exact fun _ heq => hreturn (List.cons.inj heq).1
  have hrest : afterStatement? ('\n' :: rest) = some rest := by
    rw [afterStatement?, skipBlanks_of_ne (by decide) (by decide)]
    rfl
  rw [statements?, hskip]
  dsimp only
  rw [hnone, h]
  dsimp only [Option.bind_some]
  rw [hrest, Option.bind_some]

theorem statements?_line (fuel lines : Nat) (rest : List Char) :
    statements? fuel (lines + 1) ('\n' :: rest) = statements? fuel lines rest := by
  have hskip : skipBlanks ('\n' :: rest) = '\n' :: rest :=
    skipBlanks_of_ne (by decide) (by decide) rest
  have hrest : afterStatement? ('\n' :: rest) = some rest := by
    rw [afterStatement?, hskip]
    rfl
  rw [statements?, hskip]
  dsimp only
  rw [hrest]

/-- Statements are found in a text, whatever follows it, in no more steps than it is long. -/
def Reads (text : List Char) (found : List Statement) : Prop :=
  ∃ spent ≤ text.length, ∀ fuel lines rest, text.length ≤ fuel →
    statements? fuel (lines + spent) (text ++ rest) = (statements? fuel lines rest).map (found ++ ·)

namespace Reads

variable {text text' : List Char} {found found' : List Statement}

theorem nil : Reads [] [] :=
  ⟨0, Nat.le_refl 0, fun fuel lines rest _ => by
    rw [List.nil_append, Nat.add_zero]
    cases statements? fuel lines rest <;> rfl⟩

/-- Two pieces that are read as statements are read one after the other. -/
theorem append (h : Reads text found) (h' : Reads text' found') :
    Reads (text ++ text') (found ++ found') := by
  obtain ⟨spent, hspent, hread⟩ := h
  obtain ⟨spent', hspent', hread'⟩ := h'
  refine ⟨spent' + spent, ?_, fun fuel lines rest hfuel => ?_⟩
  · rw [List.length_append]
    omega
  · rw [List.length_append] at hfuel
    rw [List.append_assoc, ← Nat.add_assoc, hread _ _ _ (by omega), hread' _ _ _ (by omega),
      Option.map_map]
    congr 1
    funext statements
    exact (List.append_assoc ..).symm

theorem line : Reads ['\n'] [] :=
  ⟨1, Nat.le_refl 1, fun fuel lines rest _ => by
    rw [List.singleton_append, statements?_line]
    cases statements? fuel lines rest <;> rfl⟩

/-- The whole of a text is read. -/
theorem statements? (h : Reads text found) {fuel lines : Nat} (hfuel : text.length ≤ fuel)
    (hlines : text.length < lines) : statements? fuel lines text = some found := by
  obtain ⟨spent, hspent, hread⟩ := h
  obtain ⟨lines, rfl⟩ : ∃ left, lines = left + 1 + spent := ⟨lines - 1 - spent, by omega⟩
  have hread := hread fuel (lines + 1) [] hfuel
  rw [List.append_nil] at hread
  rw [hread, Toml.statements?]
  exact congrArg some (List.append_nil found)

end Reads

/-- The header of a table is read. -/
theorem reads_header (hne : path ≠ []) (hpath : ∀ name ∈ path, IsBare name) :
    Reads ('[' :: key path ++ [']', '\n']) [.table path] := by
  refine ⟨1, by simp, fun fuel lines rest hfuel => ?_⟩
  have hlength := length_le_length_key hpath
  simp only [List.length_append, List.length_cons] at hfuel
  have hkey : key? fuel (key path ++ ']' :: '\n' :: rest) = some (path, ']' :: '\n' :: rest) := by
    have hskip : skipBlanks (']' :: '\n' :: rest) = ']' :: '\n' :: rest :=
      skipBlanks_of_ne (by decide) (by decide) _
    rw [key?_key hne hpath ?_ ?_ (by omega), hskip]
    · rintro c cs heq
      rw [← (List.cons.inj heq).1]
      decide
    · rw [hskip]
      nofun
  have hstatement : statement? fuel ('[' :: (key path ++ ']' :: '\n' :: rest)) =
      some (.table path, '\n' :: rest) := by
    obtain ⟨c, cs, hcs, hc⟩ := exists_key_eq_cons hne hpath
    rw [statement?, hkey]
    · rfl
    · intro more heq
      rw [hcs, List.cons_append] at heq
      exact ne_of_isBareChar hc (by decide) (List.cons.inj heq).1
  have htext : '[' :: key path ++ [']', '\n'] ++ rest =
      '[' :: (key path ++ ']' :: '\n' :: rest) := by
    simp
  rw [htext]
  exact statements?_cons (by decide) (by decide) (by decide) (by decide) (by decide) hstatement
    lines

/-- The line of a field is read. -/
theorem reads_assignment {data : Data} (hname : IsBare name) (hdata : Inline data) :
    Reads (keyPart name ++ " = ".toList ++ inline data ++ ['\n']) [.assignment [name] data] := by
  have hbare : ∀ other ∈ [name], IsBare other := by simpa using hname
  refine ⟨1, by simp; omega, fun fuel lines rest hfuel => ?_⟩
  simp only [List.length_append, List.length_singleton] at hfuel
  have hskip (cs : List Char) : skipBlanks (' ' :: '=' :: cs) = '=' :: cs := rfl
  have hkey (cs : List Char) :
      key? fuel (keyPart name ++ ' ' :: '=' :: cs) = some ([name], '=' :: cs) := by
    have hread : key? fuel (key [name] ++ ' ' :: '=' :: cs) =
        some ([name], skipBlanks (' ' :: '=' :: cs)) := by
      refine key?_key (List.cons_ne_nil name []) hbare ?_ ?_ ?_
      · rintro c ds heq
        rw [← (List.cons.inj heq).1]
        decide
      · rw [hskip]
        nofun
      · rw [List.length_singleton]
        omega
    rwa [hskip, key] at hread
  have hvalue : skipBlanks (' ' :: (inline data ++ '\n' :: rest)) = inline data ++ '\n' :: rest :=
    skipBlanks_inline hdata rest
  obtain ⟨c, cs, hcs, hc⟩ := exists_key_eq_cons (List.cons_ne_nil name []) hbare
  rw [key] at hcs
  have hstatement : statement? fuel
      (c :: (cs ++ ' ' :: '=' :: ' ' :: (inline data ++ '\n' :: rest))) =
      some (.assignment [name] data, '\n' :: rest) := by
    have hkey := hkey (' ' :: (inline data ++ '\n' :: rest))
    rw [hcs, List.cons_append] at hkey
    rw [statement?, hkey]
    · simp only [hvalue, value?_inline hdata (show 0 < fuel by omega), Option.map_some]
    · exact fun _ heq => ne_of_isBareChar hc (by decide) (List.cons.inj heq).1
    · exact fun _ heq => ne_of_isBareChar hc (by decide) (List.cons.inj heq).1
  have htext : keyPart name ++ " = ".toList ++ inline data ++ ['\n'] ++ rest =
      c :: (cs ++ ' ' :: '=' :: ' ' :: (inline data ++ '\n' :: rest)) := by
    rw [hcs]
    simp
  rw [htext]
  exact statements?_cons (ne_of_isBareChar hc (by decide)) (ne_of_isBareChar hc (by decide))
    (ne_of_isBareChar hc (by decide)) (ne_of_isBareChar hc (by decide))
    (ne_of_isBareChar hc (by decide)) hstatement lines

end Wireframe.Toml
