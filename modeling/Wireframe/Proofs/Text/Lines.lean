import Mathlib.Data.List.DropRight
import Wireframe.Text.Blank
import Wireframe.Text.Lines

/-!
# Lines and how they end

Rows are what stands between two line feeds, lines are what a reader counts. The two differ by a
carriage return at the end of a row, which no one sees once blanks are taken off
(`trim_dropReturn`), and by an empty row at the end of the text.

A text can be written with a carriage return in front of every line feed (`withReturns`). This puts
one behind each row but the last (`rows_addReturns`). The lines stay the same, provided that the
text has no carriage returns of its own (`lines_addReturns`).
-/

namespace Wireframe.Text

/-- The characters of a text with a carriage return in front of every line feed. -/
def addReturns (cs : List Char) : List Char :=
  cs.flatMap fun c => if c = '\n' then ['\r', '\n'] else [c]

/-- A text with a carriage return in front of every line feed. -/
def withReturns (text : String) : String := String.ofList (addReturns text.toList)

/-- Rows with a carriage return behind each of them but the last. -/
def returnRows : List (List Char) → List (List Char)
  | [] => []
  | [last] => [last]
  | row :: rest => (row ++ ['\r']) :: returnRows rest

/-- A part without a character can only begin before that character. -/
theorem prefix_append_cons_iff {part : List Char} {c : Char} (h : c ∉ part) (as bs : List Char) :
    part <+: as ++ c :: bs ↔ part <+: as := by
  refine ⟨fun hpart => ?_, fun hpart => hpart.trans (List.prefix_append _ _)⟩
  rcases List.prefix_or_prefix_of_prefix hpart (List.prefix_append as (c :: bs)) with hle | ⟨t, rfl⟩
  · exact hle
  · -- the part ends behind `as`, so it holds the character there or ends right there
    have ht : t <+: c :: bs := (List.prefix_append_right_inj as).mp hpart
    rcases List.prefix_cons_iff.mp ht with rfl | ⟨_, rfl, -⟩
    · simp
    · exact absurd (List.mem_append_right _ (List.mem_cons_self ..)) h

/-- A last character that a part does not have makes no difference to what begins with it. -/
theorem isPrefixOf_concat {part : List Char} {c : Char} (h : c ∉ part) (cs : List Char) :
    part.isPrefixOf (cs ++ [c]) = part.isPrefixOf cs := by
  rw [Bool.eq_iff_iff, List.isPrefixOf_iff_prefix, List.isPrefixOf_iff_prefix,
    prefix_append_cons_iff h]

/-! ### A carriage return behind a row -/

/-- One return at the end is dropped. -/
theorem dropReturn_append_return (row : List Char) : dropReturn (row ++ ['\r']) = row := by
  induction row with
  | nil => rfl
  | cons c row ih =>
    have hne : row ++ ['\r'] ≠ [] := List.append_ne_nil_of_right_ne_nil _ (List.cons_ne_nil _ _)
    rw [List.cons_append, dropReturn, ih]
    exact fun _ => hne

/-- A row is its line, with a carriage return behind it or not. -/
theorem eq_dropReturn_or (row : List Char) :
    row = dropReturn row ∨ row = dropReturn row ++ ['\r'] := by
  fun_induction dropReturn row with
  | case1 => exact .inl rfl
  | case2 => exact .inr rfl
  | case3 c cs _ ih =>
    rcases ih with h | h
    · exact .inl (congrArg (c :: ·) h)
    · exact .inr (congrArg (c :: ·) h)

theorem dropReturn_prefix (row : List Char) : dropReturn row <+: row := by
  rcases eq_dropReturn_or row with h | h
  · exact h ▸ List.prefix_refl _
  · exact ⟨['\r'], h.symm⟩

/-- What has no return in front of a row is left alone. -/
theorem dropReturn_append {part : List Char} (h : '\r' ∉ part) (row : List Char) :
    dropReturn (part ++ row) = part ++ dropReturn row := by
  induction part with
  | nil => rfl
  | cons c part ih =>
    rw [List.mem_cons, not_or] at h
    rw [List.cons_append, dropReturn, ih h.2, List.cons_append]
    exact fun hc => absurd hc.symm h.1

theorem dropReturn_eq_self {row : List Char} (h : '\r' ∉ row) : dropReturn row = row := by
  rcases eq_dropReturn_or row with hrow | hrow
  · exact hrow.symm
  · exact absurd (hrow ▸ List.mem_append_right _ (List.mem_singleton_self '\r')) h

/-- What does not end in a carriage return is a line as it stands. -/
theorem dropReturn_append_of_ne_nil {part : List Char} (hne : part ≠ []) (h : '\r' ∉ part)
    (row : List Char) : dropReturn (row ++ part) = row ++ part := by
  rcases eq_dropReturn_or (row ++ part) with hrow | hrow
  · exact hrow.symm
  · have hlast := congrArg List.getLast? hrow
    rw [List.getLast?_append_of_ne_nil _ hne, List.getLast?_concat] at hlast
    exact absurd (List.mem_of_getLast? hlast) h

/-- A further return at the end is dropped with the others. -/
theorem dropReturns_append_return (row : List Char) :
    dropReturns (row ++ ['\r']) = dropReturns row := by
  induction row with
  | nil => rfl
  | cons c row ih => rw [List.cons_append, dropReturns, dropReturns, ih]

/-- A row that does not end in a return is left alone. -/
theorem dropReturns_concat_of_ne {c : Char} (h : c ≠ '\r') (row : List Char) :
    dropReturns (row ++ [c]) = row ++ [c] := by
  induction row with
  | nil => rw [List.nil_append, dropReturns, dropReturns, if_neg h]
  | cons d row ih =>
    rw [List.cons_append, dropReturns, ih]
    split
    · next hnil => exact absurd hnil (List.append_ne_nil_of_right_ne_nil _ (List.cons_ne_nil _ _))
    · rfl

/-- What is dropped from a row is the run of carriage returns that it ends in. -/
theorem dropReturns_eq_rdropWhile (row : List Char) :
    dropReturns row = row.rdropWhile (· == '\r') := by
  induction row using List.reverseRecOn with
  | nil => rfl
  | append_singleton row c ih =>
    by_cases hc : c = '\r'
    · subst hc
      rw [dropReturns_append_return, ih, List.rdropWhile_concat_pos _ _ _ (by decide)]
    · rw [dropReturns_concat_of_ne hc, List.rdropWhile_concat_neg _ _ _ (by simpa using hc)]

/-- Dropping one return first makes no difference. -/
theorem dropReturns_dropReturn (row : List Char) :
    dropReturns (dropReturn row) = dropReturns row := by
  rcases eq_dropReturn_or row with hrow | hrow
  · rw [← hrow]
  · rw [← dropReturns_append_return, ← hrow]

/-- A return is blank, so trimming drops it anyway. -/
theorem trim_dropReturn (row : List Char) : trim (dropReturn row) = trim row := by
  rcases eq_dropReturn_or row with hrow | hrow
  · rw [← hrow]
  · have hreturn : allBlank ['\r'] = true := by decide
    have htrim := trim_append_of_allBlank (dropReturn row) hreturn
    rw [← hrow] at htrim
    exact htrim.symm

theorem allBlank_dropReturn {row : List Char} (h : allBlank row = true) :
    allBlank (dropReturn row) = true := by
  rwa [← trim_eq_nil_iff, trim_dropReturn, trim_eq_nil_iff]

/-! ### Rows of a text -/

/-- The characters of a piece are among those of the joined text. -/
theorem subset_joinWith {sep : Char} {piece : List Char} {pieces : List (List Char)}
    (h : piece ∈ pieces) : piece ⊆ joinWith sep pieces := by
  induction pieces with
  | nil => exact absurd h List.not_mem_nil
  | cons first rest ih =>
    cases rest with
    | nil =>
      rw [List.mem_singleton.mp h]
      exact List.Subset.refl _
    | cons second rest =>
      rw [joinWith_cons (List.cons_ne_nil _ _)]
      rcases List.mem_cons.mp h with rfl | h
      · exact List.subset_append_left _ _
      · exact fun c hc => List.mem_append_right _ (List.mem_cons_of_mem _ (ih h hc))

/-- A row is made of characters of the text. -/
theorem subset_of_mem_rows {cs row : List Char} (h : row ∈ rows cs) : row ⊆ cs := by
  have hsubset : row ⊆ joinWith '\n' (splitOn '\n' cs) := subset_joinWith h
  rwa [joinWith_splitOn] at hsubset

/-- A text without the separator is one piece. -/
theorem splitOn_of_not_mem {sep : Char} {cs : List Char} (h : sep ∉ cs) :
    splitOn sep cs = [cs] := by
  induction cs with
  | nil => rfl
  | cons c cs ih =>
    rw [List.mem_cons, not_or] at h
    rw [splitOn, if_neg (Ne.symm h.1), ih h.2]

/-- The last row is empty exactly if the text is or ends in a line feed. -/
theorem getLast?_rows_eq_nil_iff (cs : List Char) :
    (rows cs).getLast? = some [] ↔ cs = [] ∨ cs.getLast? = some '\n' := by
  induction cs with
  | nil => exact iff_of_true rfl (.inl rfl)
  | cons c cs ih =>
    by_cases hc : c = '\n'
    · subst hc
      rw [rows, splitOn_cons_sep, List.getLast?_cons_of_ne_nil (splitOn_ne_nil _ _), ← rows, ih]
      cases cs <;> simp
    · obtain ⟨piece, pieces, hpieces, hsplit⟩ := splitOn_cons_of_ne hc cs
      have hjoin := joinWith_splitOn '\n' cs
      rw [rows, hsplit]
      rw [rows, hpieces] at ih
      rw [hpieces] at hjoin
      cases pieces with
      | nil =>
        -- there is no line feed, and the last row begins with the character
        obtain rfl : piece = cs := hjoin
        have hnewline : '\n' ∉ piece :=
          not_mem_of_mem_splitOn (hpieces ▸ List.mem_singleton_self piece)
        refine iff_of_false (by simp) ?_
        rintro (hnil | hlast)
        · exact absurd hnil (List.cons_ne_nil _ _)
        · exact absurd (List.mem_of_getLast? hlast) (by simp [Ne.symm hc, hnewline])
      | cons next pieces =>
        rw [List.getLast?_cons_cons] at ih ⊢
        rw [ih]
        cases cs with
        | nil => simp [splitOn] at hpieces
        | cons d cs => simp

/-- Pieces without the separator are the pieces of the text that they are joined to. -/
theorem splitOn_joinWith {sep : Char} {pieces : List (List Char)} (hne : pieces ≠ [])
    (h : ∀ piece ∈ pieces, sep ∉ piece) : splitOn sep (joinWith sep pieces) = pieces := by
  induction pieces with
  | nil => exact absurd rfl hne
  | cons piece rest ih =>
    obtain ⟨hpiece, hrest⟩ := List.forall_mem_cons.mp h
    cases rest with
    | nil => exact splitOn_of_not_mem hpiece
    | cons next rest =>
      rw [joinWith_cons (List.cons_ne_nil _ _), splitOn_append_sep, splitOn_of_not_mem hpiece,
        ih (List.cons_ne_nil _ _) hrest]
      rfl

theorem returnRows_ne_nil {rows : List (List Char)} (h : rows ≠ []) : returnRows rows ≠ [] := by
  cases rows with
  | nil => exact h
  | cons row rest => cases rest <;> exact List.cons_ne_nil _ _

theorem addReturns_append (as bs : List Char) :
    addReturns (as ++ bs) = addReturns as ++ addReturns bs := List.flatMap_append

theorem addReturns_cons_of_ne {c : Char} (h : c ≠ '\n') (cs : List Char) :
    addReturns (c :: cs) = c :: addReturns cs := by
  rw [addReturns, List.flatMap_cons, if_neg h]
  rfl

/-- A text of one line stays as it is. -/
theorem addReturns_of_not_mem {cs : List Char} (h : '\n' ∉ cs) : addReturns cs = cs := by
  induction cs with
  | nil => rfl
  | cons c cs ih =>
    rw [List.mem_cons, not_or] at h
    rw [addReturns_cons_of_ne (Ne.symm h.1), ih h.2]

theorem addReturns_append_newline {row : List Char} (h : '\n' ∉ row) (cs : List Char) :
    addReturns (row ++ '\n' :: cs) = (row ++ ['\r']) ++ '\n' :: addReturns cs := by
  rw [addReturns_append, addReturns_of_not_mem h, List.append_assoc]
  rfl

/-- The rows of the text with returns are the rows with a return at each end but the last. -/
theorem rows_addReturns_joinWith {rows : List (List Char)} (hne : rows ≠ [])
    (h : ∀ row ∈ rows, '\n' ∉ row) :
    splitOn '\n' (addReturns (joinWith '\n' rows)) = returnRows rows := by
  induction rows with
  | nil => exact absurd rfl hne
  | cons row rest ih =>
    obtain ⟨hrow, hrest⟩ := List.forall_mem_cons.mp h
    cases rest with
    | nil =>
      change splitOn '\n' (addReturns row) = [row]
      rw [addReturns_of_not_mem hrow, splitOn_of_not_mem hrow]
    | cons next rest =>
      have hreturn : '\n' ∉ row ++ ['\r'] := by simp [hrow]
      rw [joinWith_cons (List.cons_ne_nil _ _), addReturns_append_newline hrow, splitOn_append_sep,
        splitOn_of_not_mem hreturn, ih (List.cons_ne_nil _ _) hrest]
      rfl

/-- Carriage returns in front of line feeds stand behind the rows, apart from the last one. -/
theorem rows_addReturns (cs : List Char) : rows (addReturns cs) = returnRows (rows cs) := by
  have hrows := rows_addReturns_joinWith (splitOn_ne_nil '\n' cs) fun _ => not_mem_of_mem_splitOn
  rwa [joinWith_splitOn] at hrows

/-! ### Lines of a text -/

/-- A row that is not the last is a line. -/
theorem linesOfRows_cons {row : List Char} {rest : List (List Char)} (h : rest ≠ []) :
    linesOfRows (row :: rest) = dropReturn row :: linesOfRows rest := by
  cases rest with
  | nil => exact absurd rfl h
  | cons _ _ => rfl

/-- Rows before the others are lines, whatever follows. -/
theorem linesOfRows_append {rest : List (List Char)} (h : rest ≠ []) (rows : List (List Char)) :
    linesOfRows (rows ++ rest) = rows.map dropReturn ++ linesOfRows rest := by
  induction rows with
  | nil => rfl
  | cons row rows ih =>
    rw [List.cons_append, linesOfRows_cons (List.append_ne_nil_of_right_ne_nil _ h), ih]
    rfl

/-- Rows without their carriage returns are the lines without theirs, with an empty one behind them
if the last row is empty. -/
theorem map_dropReturns_rows (rows : List (List Char)) : rows.map dropReturns =
    (linesOfRows rows).map dropReturns ++ if rows.getLast? = some [] then [[]] else [] := by
  fun_induction linesOfRows rows with
  | case1 => rfl
  | case2 last hlast =>
    obtain rfl := List.isEmpty_iff.mp hlast
    rfl
  | case3 last hlast => simp_all
  | case4 row rest hrest ih =>
    rw [List.map_cons, List.map_cons, dropReturns_dropReturn, List.cons_append,
      List.getLast?_cons_of_ne_nil hrest, ih]

/-- A line is the beginning of a row. -/
theorem exists_row_of_mem_linesOfRows {rows : List (List Char)} {line : List Char}
    (h : line ∈ linesOfRows rows) : ∃ row ∈ rows, line <+: row := by
  fun_induction linesOfRows rows with
  | case1 => exact absurd h List.not_mem_nil
  | case2 => exact absurd h List.not_mem_nil
  | case3 last _ => exact ⟨last, List.mem_singleton_self _, by simp [List.mem_singleton.mp h]⟩
  | case4 row rest _ ih =>
    rcases List.mem_cons.mp h with rfl | h
    · exact ⟨row, List.mem_cons_self .., dropReturn_prefix row⟩
    · obtain ⟨other, hmem, hbegins⟩ := ih h
      exact ⟨other, List.mem_cons_of_mem _ hmem, hbegins⟩

/-- No line holds a line feed. -/
theorem newline_not_mem_of_mem_lines {cs line : List Char} (h : line ∈ lines cs) :
    '\n' ∉ line := by
  obtain ⟨row, hrow, hbegins⟩ := exists_row_of_mem_linesOfRows h
  exact fun hmem => not_mem_of_mem_splitOn hrow (hbegins.subset hmem)

/-- Every row in front of a line feed is a line, the one that ends there included. -/
theorem lines_append_rows (above below : List Char) :
    lines (above ++ '\n' :: below) = (rows above).map dropReturn ++ lines below := by
  rw [lines, rows, splitOn_append_sep, linesOfRows_append (splitOn_ne_nil _ _)]
  rfl

/-- The lines of a text are those in front of any of its line feeds and those behind it. -/
theorem lines_append_newline (above below : List Char) :
    lines (above ++ '\n' :: below) = lines (above ++ ['\n']) ++ lines below := by
  rw [lines_append_rows, lines_append_rows above []]
  exact congrArg (· ++ _) (List.append_nil _).symm

theorem lines_newline {row : List Char} (h : '\n' ∉ row) :
    lines (row ++ ['\n']) = [dropReturn row] := by
  rw [lines, rows, splitOn_append_sep, splitOn_of_not_mem h]
  rfl

/-- The lines of a text that is printed line by line, and of what stands behind it. -/
theorem lines_join_append {α : Type} {items : List α} {print : α → String} {row : α → List Char}
    (h : ∀ item ∈ items, (print item).toList = row item ++ ['\n'] ∧ '\n' ∉ row item)
    (below : List Char) :
    lines ((String.join (items.map print)).toList ++ below) =
      items.map (fun item => dropReturn (row item)) ++ lines below := by
  induction items with
  | nil => rfl
  | cons item items ih =>
    obtain ⟨⟨hprint, hrow⟩, hitems⟩ := List.forall_mem_cons.mp h
    rw [List.map_cons, String.join_cons, String.toList_append, hprint, List.append_assoc,
      List.append_assoc, List.singleton_append, lines_append_newline, lines_newline hrow, ih hitems]
    rfl

/-- The lines of a text that is printed line by line. -/
theorem lines_join {α : Type} {items : List α} {print : α → String} {row : α → List Char}
    (h : ∀ item ∈ items, (print item).toList = row item ++ ['\n'] ∧ '\n' ∉ row item) :
    lines (String.join (items.map print)).toList = items.map fun item => dropReturn (row item) := by
  have hlines := lines_join_append h []
  rwa [List.append_nil, show lines [] = [] from rfl, List.append_nil] at hlines

/-- Returns at the ends of rows do not change the lines. -/
theorem linesOfRows_returnRows {rows : List (List Char)} (h : ∀ row ∈ rows, '\r' ∉ row) :
    linesOfRows (returnRows rows) = linesOfRows rows := by
  fun_induction returnRows rows with
  | case1 => rfl
  | case2 => rfl
  | case3 row rest hrest ih =>
    obtain ⟨hrow, htail⟩ := List.forall_mem_cons.mp h
    rw [linesOfRows_cons (returnRows_ne_nil hrest), linesOfRows_cons hrest,
      dropReturn_append_return, dropReturn_eq_self hrow, ih htail]

/-- **Carriage returns in front of line feeds do not change the lines** of a text that has none of
its own. -/
theorem lines_addReturns {cs : List Char} (h : '\r' ∉ cs) : lines (addReturns cs) = lines cs := by
  rw [lines, rows_addReturns, linesOfRows_returnRows, lines]
  exact fun row hrow hreturn => h (subset_of_mem_rows hrow hreturn)

/-! ### Numbers of lines -/

section Numbers

variable (p : List Char → Bool)

/-- The numbers of the lines with some property, one line after another. -/
theorem numbers_cons (line : List Char) (rest : List (List Char)) (start : Nat) :
    (((line :: rest).zipIdx start).filter fun entry => p entry.1).map (·.2) =
      (if p line then [start] else []) ++
        ((rest.zipIdx (start + 1)).filter fun entry => p entry.1).map (·.2) := by
  rw [List.zipIdx_cons, List.filter_cons]
  cases p line <;> rfl

/-- The numbers of the lines with some property increase. -/
theorem pairwise_numbers (lines : List (List Char)) (start : Nat) :
    (((lines.zipIdx start).filter fun entry => p entry.1).map (·.2)).Pairwise (· < ·) := by
  have hsublist : (((lines.zipIdx start).filter fun entry => p entry.1).map (·.2)).Sublist
      (List.range' start lines.length) := by
    rw [← List.zipIdx_map_snd]
    exact List.filter_sublist.map _
  exact List.Pairwise.sublist hsublist List.pairwise_lt_range'

end Numbers

end Wireframe.Text
