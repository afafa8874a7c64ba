import Wireframe.Highlight
import Wireframe.Proofs.Document.Entries
import Wireframe.Proofs.Line.Readings
import Wireframe.Proofs.Line.Rules
import Wireframe.Proofs.Text.Blanks

/-!
# Highlighting and reading

A line is highlighted as it is written, but it is read once it is trimmed, and by other rules. The
two agree on what matters to a reader: a line that is read as something active is never plain, and
one that is highlighted as metadata is read as a metadata entry (`reading_agrees`).

All rules that make active elements look for a pair of brackets (`Line.HasBrackets`), which is still
there once blanks are put around the line; and a line with brackets is highlighted for interaction
unless an earlier category takes it. The openings of the metadata block are those of the keys that
belong to it, and no opening begins or ends with a blank, so trimming does not touch it.
-/

namespace Wireframe

/-- Whether an element is active: a button, an image, a form field or a link. -/
def Element.isActive : Element → Bool
  | button _ | image _ | input _ | link .. => true
  | _ => false

namespace Line

variable {rule : Rule} {line : List Char} {meaning : Meaning} {element : Element}

/-- Whether a line holds an opening bracket with a closing one of the same form behind it. -/
def HasBrackets (line : List Char) : Prop :=
  ∃ brackets ∈ [('[', ']'), ('<', '>')], ∃ inside,
    brackets.1 :: (inside ++ [brackets.2]) <:+: line

theorem HasBrackets.mono {part : List Char} (h : HasBrackets part) (hpart : part <:+: line) :
    HasBrackets line := by
  obtain ⟨brackets, hmem, inside, hwithin⟩ := h
  exact ⟨brackets, hmem, inside, hwithin.trans hpart⟩

theorem hasBrackets_written (span : LinkSpan) : HasBrackets span.written :=
  ⟨('[', ']'), by decide, span.text, [], writtenUrl span.url, by simp [LinkSpan.written]⟩

/-- A line that a rule makes an active element of has brackets. -/
theorem hasBrackets_of_active (hline : '\n' ∉ line) (h : rule.meaning? line = some meaning)
    (hmem : element ∈ meaning.content) (hactive : element.isActive = true) :
    HasBrackets line := by
  have htaken := Rule.takenFrom_of_mem h hmem
  cases element with
  | button label =>
    obtain ⟨-, hwithin⟩ := infix_of_mem_buttons hline htaken
    exact ⟨('[', ']'), by decide, '[' :: (label.toList ++ [']']), by simpa using hwithin⟩
  | image description =>
    obtain ⟨-, hwithin⟩ := infix_of_mem_images hline htaken
    exact ⟨('<', '>'), by decide, description.toList, by simpa using hwithin⟩
  | input _ =>
    obtain ⟨label, blanks, marks, rest, rfl, -⟩ := exists_of_input? htaken
    exact ⟨('[', ']'), by decide, marks, label ++ ':' :: blanks, rest, by simp⟩
  | link _ _ =>
    obtain ⟨span, hspan, -⟩ := htaken
    exact (hasBrackets_written span).mono (infix_of_mem_links hspan).1
  | _ => exact Bool.noConfusion hactive

end Line

/-! ### Metadata as it is written -/

namespace Metadata

variable {line value : List Char} {key : Key}

theorem Key.tight_opening {opening : String} (h : (opening, key) ∈ Key.openings) :
    Text.Tight opening.toList := by
  have hopenings : ∀ opening ∈ Key.openings, opening.1.toList ≠ [] ∧
      opening.1.toList.head?.all (!Text.isBlank ·) = true ∧
        opening.1.toList.getLast?.all (!Text.isBlank ·) = true := by decide
  obtain ⟨hne, hhead, hlast⟩ := hopenings _ h
  exact ⟨hne, by simpa [Option.all_eq_true] using hhead, by simpa [Option.all_eq_true] using hlast⟩

/-- An entry that a line gives as it is written is the one that it gives once it is trimmed. -/
theorem entry?_trim (h : entry? line = some (key, value)) :
    entry? (Text.trim line) = some (key, value) := by
  obtain ⟨opening, rest, hmem, rfl, rfl⟩ := entry?_eq_some_iff.mp h
  rw [(Key.tight_opening hmem).trim_append, entry?_eq_some_iff]
  exact ⟨opening, Text.trimEnd rest, hmem, rfl, (Text.trim_trimEnd rest).symm⟩

end Metadata

namespace Check

/-- The openings of the metadata block are those that stand for its keys. -/
theorem mem_blockOpenings_iff {opening : String} : opening ∈ blockOpenings ↔
    ∃ key : Metadata.Key, (opening, key) ∈ Metadata.Key.openings ∧ key.inBlock = true := by
  have hopenings : blockOpenings =
      (Metadata.Key.openings.filter (·.2.inBlock)).map (·.1) := by decide
  simp [hopenings]

/-- A line starts like one of the metadata block exactly if it gives an entry for one of the keys of
the block as it is written. -/
theorem isMetadataLine_iff_entry? (line : List Char) : isMetadataLine line = true ↔
    ∃ key value, Metadata.entry? line = some (key, value) ∧ key.inBlock = true := by
  simp only [isMetadataLine, List.any_eq_true, mem_blockOpenings_iff, List.isPrefixOf_iff_prefix,
    Metadata.entry?_eq_some_iff]
  constructor
  · rintro ⟨opening, ⟨key, hmem, hblock⟩, rest, rfl⟩
    exact ⟨key, _, ⟨opening, rest, hmem, rfl, rfl⟩, hblock⟩
  · rintro ⟨key, _, ⟨opening, rest, hmem, rfl, -⟩, hblock⟩
    exact ⟨opening, ⟨key, hmem, hblock⟩, List.prefix_append _ _⟩

end Check

/-! ### Categories -/

namespace Category

variable {line : List Char}

theorem ofLine_eq_metadata_iff : ofLine line = .metadata ↔ Check.isMetadataLine line = true := by
  unfold ofLine
  split_ifs <;> simp_all

/-- A line is plain exactly if no category takes it. -/
theorem ofLine_eq_plain_iff : ofLine line = .plain ↔ Check.isMetadataLine line = false ∧
    opensStructure line = false ∧ hasLayout line = false ∧ hasInteraction line = false := by
  unfold ofLine
  split_ifs <;> simp_all

theorem reaches_of_mem {close : Char} (hmem : close ∈ line) (hline : '\n' ∉ line) :
    reaches close line = true := by
  induction line with
  | nil => exact absurd hmem List.not_mem_nil
  | cons c cs ih =>
    rw [List.mem_cons, not_or] at hline
    rw [reaches, Bool.or_eq_true, Bool.and_eq_true, beq_iff_eq, bne_iff_ne]
    rcases List.mem_cons.mp hmem with rfl | hmem
    · exact .inl rfl
    · exact .inr ⟨Ne.symm hline.1, ih hmem hline.2⟩

/-- Brackets are highlighted for interaction, whatever stands around and between them. -/
theorem hasInteraction_of_hasBrackets (hline : '\n' ∉ line) (h : Line.HasBrackets line) :
    hasInteraction line = true := by
  obtain ⟨⟨opening, closing⟩, hbrackets, inside, before, after, heq⟩ := h
  rw [List.append_assoc, List.cons_append, List.append_assoc, List.singleton_append] at heq
  have hpair : Text.somewhere (startsPair opening closing) line = true := by
    rw [Text.somewhere_eq_true_iff]
    refine ⟨before, opening :: (inside ++ closing :: after), heq.symm, ?_⟩
    have hreaches : reaches closing (inside ++ closing :: after) = true := by
      refine reaches_of_mem (by simp) fun hmem => hline ?_
      rw [← heq]
      exact List.mem_append_right _ (List.mem_cons_of_mem _ hmem)
    rw [startsPair, beq_self_eq_true, hreaches, Bool.and_self]
  rw [hasInteraction]
  rcases List.mem_pair.mp hbrackets with h | h <;>
    obtain ⟨rfl, rfl⟩ := Prod.mk.inj h <;> simp [hpair]

/-- A line that is read as something active is not plain. -/
theorem ofLine_ne_plain_of_active {rule : Line.Rule} {meaning : Line.Meaning} {element : Element}
    (hline : '\n' ∉ line) (h : Line.read? line = some (rule, meaning))
    (hmem : element ∈ meaning.content) (hactive : element.isActive = true) :
    ofLine line ≠ .plain := by
  obtain ⟨-, -, hmeaning⟩ := Line.read?_eq_some_iff.mp h
  have hwithin := Text.trim_infix line
  have htrimmed : '\n' ∉ Text.trim line := fun hnewline => hline (hwithin.subset hnewline)
  have hbrackets := (Line.hasBrackets_of_active htrimmed hmeaning hmem hactive).mono hwithin
  rw [Ne, ofLine_eq_plain_iff, hasInteraction_of_hasBrackets hline hbrackets]
  simp

/-- A line that is highlighted as metadata is read as a metadata entry. -/
theorem read?_of_metadata (h : ofLine line = .metadata) :
    ∃ key value, Line.read? line = some (.metadata, .entry key value) := by
  rw [ofLine_eq_metadata_iff, Check.isMetadataLine_iff_entry?] at h
  obtain ⟨key, value, hentry, -⟩ := h
  have htrim := Metadata.entry?_trim hentry
  refine ⟨key, String.ofList value, Line.read?_eq_some_iff.mpr ⟨fun hnil => ?_, ?_, ?_⟩⟩
  · rw [hnil] at htrim
    exact absurd htrim.symm (Option.some_ne_none _)
  · exact fun earlier hearlier => absurd hearlier List.not_mem_nil
  · rw [Line.Rule.meaning?, htrim, Option.map_some]

/-- **Highlighting agrees with reading** on what is active and on what is metadata: a line without
line feeds that is read as a button, an image, a form field or a link is not plain, and one that is
highlighted as metadata is read as a metadata entry. The lines of the metadata block are those that
give an entry for one of its keys as they are written. -/
theorem reading_agrees (line : List Char) :
    ('\n' ∉ line → ∀ rule meaning, Line.read? line = some (rule, meaning) →
      ∀ element ∈ meaning.content, element.isActive = true → ofLine line ≠ .plain) ∧
    (ofLine line = .metadata →
      ∃ key value, Line.read? line = some (.metadata, .entry key value)) ∧
    (Check.isMetadataLine line = true ↔
      ∃ key value, Metadata.entry? line = some (key, value) ∧ key.inBlock = true) :=
  ⟨fun hline _ _ hread _ => ofLine_ne_plain_of_active hline hread, read?_of_metadata,
    Check.isMetadataLine_iff_entry? line⟩

/-- A form field is read and not plain, and a metadata line with a carriage return is read. -/
theorem reading_agrees_field :
    ('\n' ∉ "Name: [__]".toList ∧
      Line.read? "Name: [__]".toList = some (.input, .elements [.input "Name"]) ∧
      ofLine "Name: [__]".toList ≠ .plain) ∧
    ofLine "Title: Sign in\r".toList = .metadata ∧
      ∃ key value, Line.read? "Title: Sign in\r".toList = some (.metadata, .entry key value) :=
  have hnewline : '\n' ∉ "Name: [__]".toList := by decide
  have hread : Line.read? "Name: [__]".toList = some (.input, .elements [.input "Name"]) := by rfl
  have hmetadata : ofLine "Title: Sign in\r".toList = .metadata := by decide
  ⟨⟨hnewline, hread,
      (reading_agrees _).1 hnewline _ _ hread _ (List.mem_singleton_self _) (by rfl)⟩,
    hmetadata, (reading_agrees _).2.1 hmetadata⟩

/-- A link may reach across a line feed, but brackets are not looked for beyond one. -/
example : ofLine "[a\nb]".toList = .plain ∧
    Line.read? "[a\nb]".toList = some (.links, .elements [.link "a\nb" none]) := ⟨rfl, rfl⟩

end Category

end Wireframe
