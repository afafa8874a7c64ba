import Mathlib.Data.List.Forall2
import Wireframe.Highlight
import Wireframe.Proofs.Text.Lines

/-!
# What highlighting shows

The markup of a text has one element for each of its rows, in order and on a line of its own
(`markup_shows`). The class of an element is that of the category that is listed for the row, and
its content stands for the row as it is: no angle bracket is left in it, every ampersand in it
begins an entity, and decoding the entities gives the row back, without the carriage returns at its
end. Only a row that is empty without them is shown as a space.

Decoding reads from left to right, so a row that holds what looks like an entity comes back as it
was written: its ampersand has become an entity of its own.
-/

namespace Wireframe.Highlight

/-- The entities of markup, each with the character that it stands for. -/
def entities : List (List Char × Char) :=
  [("&amp;".toList, '&'), ("&lt;".toList, '<'), ("&gt;".toList, '>')]

/-- The text that markup stands for: from left to right, entities become their characters. -/
def decode : List Char → List Char
  | '&' :: 'a' :: 'm' :: 'p' :: ';' :: cs => '&' :: decode cs
  | '&' :: 'l' :: 't' :: ';' :: cs => '<' :: decode cs
  | '&' :: 'g' :: 't' :: ';' :: cs => '>' :: decode cs
  | c :: cs => c :: decode cs
  | [] => []

/-- Whether some characters may stand in an element: none of them is an angle bracket, and every
ampersand begins an entity. -/
structure IsContent (cs : List Char) : Prop where
  not_opening : '<' ∉ cs
  not_closing : '>' ∉ cs
  names_entities : ∀ tail, '&' :: tail <:+ cs → ∃ entity ∈ entities, entity.1 <+: '&' :: tail

/-- Whether a piece of markup shows a row in the style of a category: it is one element of the style
class, and its content stands for the row without the carriage returns at its end, or for a space if
nothing else is left of it. -/
def Shows (piece : List Char) (category : Category) (row : List Char) : Prop :=
  ∃ content, piece = "<span class=\"".toList ++ category.cssClass.toList ++ "\">".toList ++
      content ++ "</span>".toList ∧
    IsContent content ∧
    decode content =
      if row.rdropWhile (· == '\r') = [] then [' '] else row.rdropWhile (· == '\r')

/-! ### Escaped characters -/

variable {c : Char} {cs name : List Char}

theorem escape_append (as bs : List Char) : escape (as ++ bs) = escape as ++ escape bs := by
  simp only [escape, replaceChar, List.flatMap_append]

/-- How a character is written: as the entity that stands for it, or as itself if there is none.
No replacement touches the entities that earlier ones have written. -/
theorem escape_singleton_cases (c : Char) : (escape [c], c) ∈ entities ∨
    (c ≠ '&' ∧ c ≠ '<' ∧ c ≠ '>') ∧ escape [c] = [c] := by
  by_cases hamp : c = '&'
  · subst hamp
    exact .inl (by decide)
  by_cases hlt : c = '<'
  · subst hlt
    exact .inl (by decide)
  by_cases hgt : c = '>'
  · subst hgt
    exact .inl (by decide)
  · exact .inr ⟨⟨hamp, hlt, hgt⟩, by simp [escape, replaceChar, hamp, hlt, hgt]⟩

theorem escape_cons (c : Char) (cs : List Char) : escape (c :: cs) = escape [c] ++ escape cs :=
  escape_append [c] cs

theorem mem_entities_iff : (name, c) ∈ entities ↔ name = "&amp;".toList ∧ c = '&' ∨
    name = "&lt;".toList ∧ c = '<' ∨ name = "&gt;".toList ∧ c = '>' := by
  simp [entities]

theorem decode_entity (h : (name, c) ∈ entities) (cs : List Char) :
    decode (name ++ cs) = c :: decode cs := by
  rcases mem_entities_iff.mp h with ⟨rfl, rfl⟩ | ⟨rfl, rfl⟩ | ⟨rfl, rfl⟩ <;> rfl

theorem decode_cons_of_ne (h : c ≠ '&') (cs : List Char) : decode (c :: cs) = c :: decode cs := by
  rw [decode]
  all_goals exact fun _ hc => absurd hc h

/-- Decoding gives a text back as it was before it was escaped. -/
theorem decode_escape (cs : List Char) : decode (escape cs) = cs := by
  induction cs with
  | nil => rfl
  | cons c cs ih =>
    rw [escape_cons]
    rcases escape_singleton_cases c with hentity | ⟨⟨hamp, -, -⟩, hplain⟩
    · rw [decode_entity hentity, ih]
    · rw [hplain, List.singleton_append, decode_cons_of_ne hamp, ih]

/-! ### Content -/

theorem not_mem_of_mem_entities : ∀ entity ∈ entities,
    '<' ∉ entity.1 ∧ '>' ∉ entity.1 ∧ '\n' ∉ entity.1 := by decide

theorem isContent_nil : IsContent [] where
  not_opening := List.not_mem_nil
  not_closing := List.not_mem_nil
  names_entities _ h := absurd (List.suffix_nil.mp h) (List.cons_ne_nil _ _)

/-- A character that is no markup may stand in front of content. -/
theorem IsContent.cons (hc : c ≠ '&' ∧ c ≠ '<' ∧ c ≠ '>') (h : IsContent cs) :
    IsContent (c :: cs) where
  not_opening := by simp [hc.2.1.symm, h.not_opening]
  not_closing := by simp [hc.2.2.symm, h.not_closing]
  names_entities tail htail := by
    rcases List.suffix_cons_iff.mp htail with heq | hsuffix
    · exact absurd (List.cons.inj heq).1.symm hc.1
    · exact h.names_entities tail hsuffix

/-- A tail that begins with a character begins behind a part without it. -/
theorem suffix_of_not_mem {part tail : List Char} (hpart : c ∉ part)
    (h : c :: tail <:+ part ++ cs) : c :: tail <:+ cs := by
  induction part with
  | nil => exact h
  | cons d part ih =>
    rw [List.mem_cons, not_or] at hpart
    rcases List.suffix_cons_iff.mp h with heq | hsuffix
    · exact absurd (List.cons.inj heq).1 hpart.1
    · exact ih hpart.2 hsuffix

/-- An entity may stand in front of content. -/
theorem IsContent.entity (hname : (name, c) ∈ entities) (h : IsContent cs) :
    IsContent (name ++ cs) where
  not_opening := by simp [(not_mem_of_mem_entities _ hname).1, h.not_opening]
  not_closing := by simp [(not_mem_of_mem_entities _ hname).2.1, h.not_closing]
  names_entities tail htail := by
    obtain ⟨inner, rfl, hinner⟩ : ∃ inner, name = '&' :: inner ∧ '&' ∉ inner := by
      rcases mem_entities_iff.mp hname with ⟨rfl, -⟩ | ⟨rfl, -⟩ | ⟨rfl, -⟩ <;>
        exact ⟨_, rfl, by decide⟩
    rcases List.suffix_cons_iff.mp htail with heq | hsuffix
    · exact ⟨_, hname, heq ▸ List.prefix_append ('&' :: inner) cs⟩
    · exact h.names_entities tail (suffix_of_not_mem hinner hsuffix)

/-- Escaped text may stand in an element. -/
theorem isContent_escape (cs : List Char) : IsContent (escape cs) := by
  induction cs with
  | nil => exact isContent_nil
  | cons c cs ih =>
    rw [escape_cons]
    rcases escape_singleton_cases c with hentity | ⟨hne, hplain⟩
    · exact ih.entity hentity
    · rw [hplain]
      exact ih.cons hne

/-! ### Elements -/

/-- Escaping ends no line. -/
theorem newline_not_mem_escape (h : '\n' ∉ cs) : '\n' ∉ escape cs := by
  induction cs with
  | nil => exact List.not_mem_nil
  | cons c cs ih =>
    rw [List.mem_cons, not_or] at h
    rw [escape_cons, List.mem_append, not_or]
    refine ⟨?_, ih h.2⟩
    rcases escape_singleton_cases c with hentity | ⟨-, hplain⟩
    · exact (not_mem_of_mem_entities _ hentity).2.2
    · rw [hplain, List.mem_singleton]
      exact h.1

/-- The markup of a line holds no line feed. -/
theorem newline_not_mem_markupLine (h : '\n' ∉ cs) : '\n' ∉ markupLine cs := by
  have hshown : '\n' ∉ shown cs := by
    rw [shown]
    split
    · decide
    · exact h
  have hopening : ∀ category : Category,
      '\n' ∉ ("<span class=\"" ++ category.cssClass ++ "\">").toList := by
    intro category
    cases category <;> decide
  rw [markupLine, List.mem_append, List.mem_append, not_or, not_or]
  exact ⟨⟨hopening _, newline_not_mem_escape hshown⟩, by decide⟩

/-- The markup of a row without the carriage returns at its end shows the row. -/
theorem shows_markupLine (row : List Char) :
    Shows (markupLine (Text.dropReturns row)) (Category.ofLine (Text.dropReturns row)) row := by
  refine ⟨escape (shown (Text.dropReturns row)), ?_, isContent_escape _, ?_⟩
  · simp [markupLine]
  · rw [decode_escape, shown, Text.dropReturns_eq_rdropWhile]
    simp only [List.isEmpty_iff]

/-! ### The markup of a text -/

theorem displayLines_ne_nil (text : String) : displayLines text ≠ [] := by
  rw [displayLines, Ne, List.map_eq_nil_iff]
  exact Text.splitOn_ne_nil '\n' text.toList

/-- What is shown as a line has no line end in it. -/
theorem newline_not_mem_of_mem_displayLines {text : String} {line : List Char}
    (h : line ∈ displayLines text) : '\n' ∉ line := by
  obtain ⟨row, hrow, rfl⟩ := List.mem_map.mp h
  rw [Text.dropReturns_eq_rdropWhile]
  exact fun hmem => Text.not_mem_of_mem_splitOn hrow ((List.rdropWhile_prefix _ _).subset hmem)

/-- The lines of the markup are those of the lines that are shown. -/
theorem rows_markup (text : String) :
    Text.rows (markup text).toList = (displayLines text).map markupLine := by
  rw [markup, String.toList_ofList]
  refine Text.splitOn_joinWith (by simpa using displayLines_ne_nil text) ?_
  rw [List.forall_mem_map]
  exact fun line hline => newline_not_mem_markupLine (newline_not_mem_of_mem_displayLines hline)

/-- **Highlighting shows each row of a text**: the categories are listed for the rows in order, and
the markup has one line for each of them, which shows the row in the style of its category. -/
theorem markup_shows (text : String) :
    (categories text).map (·.1) = List.range' 1 (Text.rows text.toList).length ∧
      List.Forall₂
        (fun piece entry => ∃ row, (Text.rows text.toList)[entry.1 - 1]? = some row ∧
          Shows piece entry.2 row)
        (Text.rows (markup text).toList) (categories text) := by
  constructor
  · rw [categories, List.map_map, ← List.length_map Text.dropReturns, ← displayLines]
    exact List.zipIdx_map_snd ..
  · rw [rows_markup, categories, List.forall₂_iff_get]
    refine ⟨by simp, fun i hi _ => ?_⟩
    have hrow : i < (Text.rows text.toList).length := by simpa [displayLines] using hi
    refine ⟨(Text.rows text.toList)[i], by simp, ?_⟩
    simpa [displayLines] using shows_markupLine (Text.rows text.toList)[i]

/-- What looks like an entity is shown as it was written. -/
example : markup "# &lt;\r\r\n" =
    "<span class=\"hl-structure\"># &amp;lt;</span>\n<span class=\"hl-default\"> </span>" := by
  rfl

end Wireframe.Highlight
