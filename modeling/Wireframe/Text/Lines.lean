/-!
# Lines of a text

A text is cut at its line feeds in two ways. `rows` gives every piece between two line feeds, the
last one included even when it is empty. `lines` gives the lines a reader counts: an empty piece
after the last line feed is no line, and a carriage return right before a line feed belongs to the
line's end.
-/

namespace Wireframe.Text

/-- The pieces between the occurrences of `sep`; there is one more of them than of `sep`. -/
def splitOn (sep : Char) : List Char → List (List Char)
  | [] => [[]]
  | c :: cs =>
    if c = sep then [] :: splitOn sep cs
    else
      match splitOn sep cs with
      | [] => [[c]]
      | piece :: pieces => (c :: piece) :: pieces

/-- The pieces put together again with `sep` between them. -/
def joinWith (sep : Char) : List (List Char) → List Char
  | [] => []
  | [piece] => piece
  | piece :: pieces => piece ++ sep :: joinWith sep pieces

/-- The pieces of a text between its line feeds. -/
def rows (cs : List Char) : List (List Char) := splitOn '\n' cs

/-- Drops one carriage return from the end of a line. -/
def dropReturn : List Char → List Char
  | [] => []
  | ['\r'] => []
  | c :: cs => c :: dropReturn cs

/-- Drops every carriage return from the end of a line. -/
def dropReturns : List Char → List Char
  | [] => []
  | c :: cs =>
    match dropReturns cs with
    | [] => if c = '\r' then [] else [c]
    | kept => c :: kept

/-- The lines among rows: the last row ends at the end of the text, every other one at a line
feed. -/
def linesOfRows : List (List Char) → List (List Char)
  | [] => []
  | [last] => if last.isEmpty then [] else [last]
  | row :: rest => dropReturn row :: linesOfRows rest

/-- The lines of a text, without their ends. -/
def lines (cs : List Char) : List (List Char) := linesOfRows (rows cs)

/-- The text made of whole lines, each with a line feed behind it. -/
def wholeLines (lines : List String) : String := String.join (lines.map (· ++ "\n"))

/-! ### Cutting and joining -/

theorem splitOn_ne_nil (sep : Char) (cs : List Char) : splitOn sep cs ≠ [] := by
  cases cs with
  | nil => simp [splitOn]
  | cons c cs =>
    simp only [splitOn]
    split
    · simp
    · split <;> simp

theorem splitOn_cons_sep (sep : Char) (cs : List Char) :
    splitOn sep (sep :: cs) = [] :: splitOn sep cs := by
  simp [splitOn]

/-- A character that does not separate belongs to the first piece. -/
theorem splitOn_cons_of_ne {sep c : Char} (h : c ≠ sep) (cs : List Char) :
    ∃ piece pieces, splitOn sep cs = piece :: pieces ∧
      splitOn sep (c :: cs) = (c :: piece) :: pieces := by
  obtain ⟨piece, pieces, hp⟩ := List.exists_cons_of_ne_nil (splitOn_ne_nil sep cs)
  exact ⟨piece, pieces, hp, by simp [splitOn, h, hp]⟩

theorem joinWith_cons {sep : Char} {piece : List Char} {pieces : List (List Char)}
    (h : pieces ≠ []) : joinWith sep (piece :: pieces) = piece ++ sep :: joinWith sep pieces := by
  cases pieces with
  | nil => contradiction
  | cons _ _ => rfl

/-- Joining the pieces of a text gives the text back. -/
theorem joinWith_splitOn (sep : Char) (cs : List Char) : joinWith sep (splitOn sep cs) = cs := by
  induction cs with
  | nil => rfl
  | cons c cs ih =>
    by_cases h : c = sep
    · subst h
      rw [splitOn_cons_sep, joinWith_cons (splitOn_ne_nil _ _), ih, List.nil_append]
    · obtain ⟨piece, pieces, hp, hc⟩ := splitOn_cons_of_ne h cs
      rw [hc]
      rw [hp] at ih
      cases pieces with
      | nil => simpa [joinWith] using ih
      | cons _ _ => simpa [joinWith] using ih

/-- No piece holds the separator. -/
theorem not_mem_of_mem_splitOn {sep : Char} {cs piece : List Char} (h : piece ∈ splitOn sep cs) :
    sep ∉ piece := by
  induction cs generalizing piece with
  | nil => simp_all [splitOn]
  | cons c cs ih =>
    by_cases hc : c = sep
    · subst hc
      rw [splitOn_cons_sep] at h
      rcases List.mem_cons.1 h with rfl | h
      · simp
      · exact ih h
    · obtain ⟨first, pieces, hp, hs⟩ := splitOn_cons_of_ne hc cs
      rw [hs] at h
      rcases List.mem_cons.1 h with rfl | h
      · have := ih (show first ∈ splitOn sep cs by simp [hp])
        simp [this, Ne.symm hc]
      · exact ih (by simp [hp, h])

/-- A separator parts the pieces before it from those behind it. -/
theorem splitOn_append_sep (sep : Char) (as bs : List Char) :
    splitOn sep (as ++ sep :: bs) = splitOn sep as ++ splitOn sep bs := by
  induction as with
  | nil => simp [splitOn]
  | cons a as ih =>
    by_cases h : a = sep
    · simp [splitOn, h, ih]
    · obtain ⟨piece, pieces, hp, hs⟩ := splitOn_cons_of_ne h as
      obtain ⟨_, _, hp', hs'⟩ := splitOn_cons_of_ne h (as ++ sep :: bs)
      rw [ih, hp, List.cons_append] at hp'
      injection hp' with h1 h2
      rw [List.cons_append, hs', hs, ← h1, ← h2, List.cons_append]

end Wireframe.Text
