import Wireframe.Proofs.Document.Sections
import Wireframe.Proofs.Line.Labels
import Wireframe.Proofs.Line.Links

/-!
# What the rules take from a line

A rule that applies to a line takes some parts of it and leaves the rest. Of each part that is taken
it is said here where it stands in the line: behind which marker, between which brackets. This is
what all that is known of the elements of a line comes from (`Rule.takenFrom_of_mem`), and the
brackets are what a line can be recognised by without reading it.
-/

namespace Wireframe

/-- Whether an element is what the rule for its kind takes from a line. No line has a landmark for
an element. -/
def Element.TakenFrom (line : List Char) : Element → Prop
  | heading level content => Line.heading? line = some (level, content.toList)
  | button label => label.toList ∈ Line.buttons line
  | image description => description.toList ∈ Line.images line
  | input label => Line.input? line = some label.toList
  | link content url => ∃ span ∈ Line.links line, span.element = .link content url
  | text content => content.toList = line
  | listItem content => Line.listItem? line = some content.toList
  | divider => Line.isDivider line = true
  | landmark .. => False
  | skipLink content => content.toList = line ∧ Line.isSkipLink line = true

namespace Line

variable {line content : List Char}

/-! ### Markers -/

/-- A landmark is two bars, a blank and its name. -/
theorem landmark?_eq_some_iff :
    landmark? line = some content ↔ line = '|' :: '|' :: ' ' :: content := by
  unfold landmark?
  split
  · simp
  · next hnot => exact iff_of_false (Option.some_ne_none _).symm fun heq => hnot _ heq

/-- An item of a list is a star or a hyphen, a blank and its text. -/
theorem listItem?_eq_some_iff : listItem? line = some content ↔
    line = '*' :: ' ' :: content ∨ line = '-' :: ' ' :: content := by
  unfold listItem?
  split
  · simp
  · simp
  · next hstar hdash =>
    refine iff_of_false (Option.some_ne_none _).symm ?_
    rintro (heq | heq)
    · exact hstar _ heq
    · exact hdash _ heq

/-! ### Brackets -/

/-- A form field is a label, a colon and, behind no more than blanks, underscores in brackets. -/
theorem exists_of_input? (h : input? line = some content) :
    ∃ label blanks marks rest,
      line = label ++ ':' :: (blanks ++ '[' :: (marks ++ ']' :: rest)) ∧ label ≠ [] ∧
        ':' ∉ label ∧ content = Text.trim label := by
  by_cases hcolon : ':' ∈ line
  · obtain ⟨label, behind, rfl, hlabel⟩ := List.eq_append_cons_of_mem hcolon
    rw [input?, Text.span_ne_append hlabel] at h
    cases label with
    | nil => exact absurd h.symm (Option.some_ne_none _)
    | cons c cs =>
      dsimp only at h
      split at h
      · next field hfield =>
        split at h
        · next rest hrest =>
          have hbehind : behind = behind.takeWhile Text.isBlank ++
              '[' :: ('_' :: field.takeWhile (· == '_') ++ ']' :: rest) := by
            rw [← hrest, List.cons_append, List.takeWhile_append_dropWhile, ← hfield,
              Text.trimStart, List.takeWhile_append_dropWhile]
          exact ⟨c :: cs, _, _, rest, congrArg (c :: cs ++ ':' :: ·) hbehind, List.cons_ne_nil _ _,
            hlabel, (Option.some_inj.mp h).symm⟩
        · exact absurd h.symm (Option.some_ne_none _)
      · exact absurd h.symm (Option.some_ne_none _)
  · rw [input?, Text.span_ne_of_not_mem hcolon] at h
    cases line <;> exact absurd h.symm (Option.some_ne_none _)

/-- The label of a button stands on its line in double brackets, and is not empty. -/
theorem infix_of_mem_buttons (hline : '\n' ∉ line) (h : content ∈ buttons line) :
    content ≠ [] ∧ ['[', '['] ++ content ++ [']', ']'] <:+: line := by
  obtain ⟨before, after, rfl, hfits⟩ := (recognisedBy_buttonAt? hline).exists_of_mem h
  exact ⟨hfits.1, before, after, List.append_assoc ..⟩

/-- The description of an image stands on its line in angle brackets, and is not empty. -/
theorem infix_of_mem_images (hline : '\n' ∉ line) (h : content ∈ images line) :
    content ≠ [] ∧ ['<'] ++ content ++ ['>'] <:+: line := by
  obtain ⟨before, after, rfl, hfits⟩ := (recognisedBy_imageAt? hline).exists_of_mem h
  exact ⟨hfits.1, before, after, List.append_assoc ..⟩

/-- A link stands on its line as it is written, and fits what follows. -/
theorem infix_of_mem_links {span : LinkSpan} (h : span ∈ links line) :
    span.written <:+: line ∧ ∃ after, span.Fits after := by
  obtain ⟨before, after, rfl, hfits⟩ := (recognisedBy_linkAt? line).exists_of_mem h
  exact ⟨⟨before, after, List.append_assoc ..⟩, after, hfits⟩

/-- A line that begins as a blank to fill in has no links. -/
theorem mem_proseLinks {span : LinkSpan} :
    span ∈ proseLinks line ↔ ¬ ['[', '_'] <+: line ∧ span ∈ links line := by
  rw [proseLinks, ← List.isPrefixOf_iff_prefix]
  split <;> simp_all

/-! ### Elements -/

/-- What an element of a line is taken from, by whatever rule. -/
theorem Rule.takenFrom_of_mem {rule : Rule} {meaning : Meaning} {element : Element}
    (h : rule.meaning? line = some meaning) (hmem : element ∈ meaning.content) :
    element.TakenFrom line := by
  -- the element is what the rule found, or it is one of those made from what it found
  cases rule with
  | metadata | landmark =>
    obtain ⟨found, -, rfl⟩ := Option.map_eq_some_iff.mp h
    exact absurd hmem List.not_mem_nil
  | heading | input | listItem =>
    obtain ⟨found, hfound, rfl⟩ := Option.map_eq_some_iff.mp h
    obtain rfl := List.mem_singleton.mp hmem
    simpa [Element.TakenFrom] using hfound
  | image =>
    obtain ⟨description, hhead, rfl⟩ := Option.map_eq_some_iff.mp h
    obtain rfl := List.mem_singleton.mp hmem
    simpa [Element.TakenFrom] using List.mem_of_mem_head? hhead
  | buttons =>
    obtain ⟨-, rfl⟩ := someElements_eq_some_iff.mp h
    obtain ⟨label, hlabel, rfl⟩ := List.mem_map.mp hmem
    simpa [Element.TakenFrom] using hlabel
  | links =>
    obtain ⟨-, rfl⟩ := someElements_eq_some_iff.mp h
    obtain ⟨span, hspan, rfl⟩ := List.mem_map.mp hmem
    exact ⟨span, (mem_proseLinks.mp hspan).2, rfl⟩
  | skipLink =>
    obtain ⟨hskip, hmeaning⟩ := Option.ite_none_right_eq_some.mp h
    obtain rfl := Option.some_inj.mp hmeaning
    obtain rfl := List.mem_singleton.mp hmem
    exact ⟨String.toList_ofList, hskip⟩
  | divider =>
    obtain ⟨hdivider, hmeaning⟩ := Option.ite_none_right_eq_some.mp h
    obtain rfl := Option.some_inj.mp hmeaning
    obtain rfl := List.mem_singleton.mp hmem
    exact hdivider
  | text =>
    obtain ⟨-, hmeaning⟩ := Option.ite_none_left_eq_some.mp h
    obtain rfl := Option.some_inj.mp hmeaning
    obtain rfl := List.mem_singleton.mp hmem
    exact String.toList_ofList

end Line

end Wireframe
