import Mathlib.Data.List.Infix
import Mathlib.Data.List.Nodup
import Wireframe.Proofs.Document.Sections

/-!
# Metadata entries

A line gives a metadata entry if, once trimmed, it starts with an opening. No opening starts with
another one (`Key.eq_of_prefix`), so the order in which they are tried does not matter and an entry
has one key (`Metadata.entry?_eq_some_iff`). The metadata rule comes first and is the only one that
makes entries, so a document's metadata is what looking up the keys in the list of all entries
gives (`Document.get?_ofText`), and a value is dropped exactly if some key has two entries
(`Outline.drops_iff`).
-/

namespace Wireframe

/-! ### Openings -/

namespace Metadata

theorem Key.eq_of_prefix : ∀ opening ∈ Key.openings, ∀ other ∈ Key.openings,
    opening.1.toList <+: other.1.toList → opening = other := by decide

/-- An entry is an opening that stands for the key, and the value behind it. -/
theorem entry?_eq_some_iff {line value : List Char} {key : Key} :
    entry? line = some (key, value) ↔
      ∃ opening rest, (opening, key) ∈ Key.openings ∧ line = opening.toList ++ rest ∧
        value = Text.trim rest := by
  -- what the search finds comes from an opening of the line
  have hfound : ∀ {key value}, entry? line = some (key, value) →
      ∃ opening rest, (opening, key) ∈ Key.openings ∧ line = opening.toList ++ rest ∧
        value = Text.trim rest := by
    intro key value h
    obtain ⟨⟨opening, _⟩, hmem, hopening⟩ := List.exists_of_findSome?_eq_some h
    obtain ⟨rest, hrest, heq⟩ := Option.map_eq_some_iff.mp hopening
    obtain ⟨rfl, rfl⟩ := Prod.mk.inj heq
    exact ⟨opening, rest, hmem, afterOpening?_eq_some_iff.mp hrest, rfl⟩
  refine ⟨hfound, ?_⟩
  rintro ⟨opening, rest, hmem, hline, rfl⟩
  cases hentry : entry? line with
  | none =>
    have hnone := List.findSome?_eq_none_iff.mp hentry (opening, key) hmem
    rw [afterOpening?_eq_some_iff.mpr hline] at hnone
    exact absurd hnone (Option.some_ne_none _)
  | some found =>
    obtain ⟨key', value'⟩ := found
    obtain ⟨opening', rest', hmem', hline', rfl⟩ := hfound hentry
    -- of two openings of one line, one starts with the other
    have heq : (opening, key) = (opening', key') := by
      rcases List.prefix_or_prefix_of_prefix ⟨rest, hline.symm⟩ ⟨rest', hline'.symm⟩ with h | h
      · exact Key.eq_of_prefix _ hmem _ hmem' h
      · exact (Key.eq_of_prefix _ hmem' _ hmem h).symm
    obtain ⟨rfl, rfl⟩ := Prod.mk.inj heq
    rw [hline] at hline'
    rw [List.append_cancel_left hline']

end Metadata

/-! ### Entries of lines -/

namespace Line

/-- The entry that a line gives, if it gives one. -/
def keyValue? (line : List Char) : Option (Metadata.Key × String) :=
  (Metadata.entry? (Text.trim line)).map fun entry => (entry.1, String.ofList entry.2)

/-- The entries that lines give, in order. -/
def entries (lines : List (List Char)) : List (Metadata.Key × String) := lines.filterMap keyValue?

/-- The entry that a meaning is. -/
def Meaning.keyValue? : Meaning → Option (Metadata.Key × String)
  | entry key value => some (key, value)
  | _ => none

theorem Meaning.keyValue?_eq_some_iff {meaning : Meaning} {key : Metadata.Key} {value : String} :
    meaning.keyValue? = some (key, value) ↔ meaning = .entry key value := by
  cases meaning <;> simp [Meaning.keyValue?]

/-- Only the metadata rule makes entries. -/
theorem Rule.eq_metadata_of_entry {rule : Rule} {line : List Char} {key : Metadata.Key}
    {value : String} (h : rule.meaning? line = some (.entry key value)) : rule = .metadata := by
  cases rule with
  | metadata => rfl
  | buttons | links => simp [meaning?, someElements_eq_some_iff] at h
  | _ => simp [meaning?] at h

/-- The first rule for a line is the one for metadata where there are any. -/
theorem keyValue?_firstRule? (line : List Char) :
    (firstRule? line).bind (·.2.keyValue?) =
      (Metadata.entry? line).map fun entry => (entry.1, String.ofList entry.2) := by
  cases hentry : Metadata.entry? line with
  | some entry =>
    have hfirst : firstRule? line = some (.metadata, .entry entry.1 (String.ofList entry.2)) := by
      rw [firstRule?, Rule.inOrder, List.findSome?_cons, Rule.meaning?, hentry]
      rfl
    rw [hfirst]
    rfl
  | none =>
    rw [Option.map_none, Option.bind_eq_none_iff]
    rintro ⟨rule, meaning⟩ hrule
    have hm := (applies_of_findSome? hrule).2
    rw [Option.eq_none_iff_forall_ne_some]
    rintro ⟨key, value⟩ hvalue
    obtain rfl := Meaning.keyValue?_eq_some_iff.mp hvalue
    obtain rfl := Rule.eq_metadata_of_entry hm
    rw [Rule.meaning?, hentry] at hm
    exact absurd hm.symm (Option.some_ne_none _)

/-- The meaning of a line is an entry exactly if its trimmed form is one. -/
theorem keyValue?_read? (line : List Char) :
    (read? line).bind (·.2.keyValue?) = keyValue? line := by
  rw [read?, keyValue?]
  cases htrim : Text.trim line with
  | nil => rfl
  | cons c cs => exact keyValue?_firstRule? (c :: cs)

/-- The entries of a document are those of its lines. -/
theorem entries_lines (text : List Char) :
    (meanings text).filterMap Meaning.keyValue? = entries (Text.lines text) := by
  rw [meanings, List.filterMap_filterMap, entries]
  congr 1
  funext line
  rw [← keyValue?_read?, Option.bind_map]
  rfl

/-- The first value for a key is found among the entries. -/
theorem findSome?_value? (meanings : List Meaning) (key : Metadata.Key) :
    meanings.findSome? (Meaning.value? key) =
      (meanings.filterMap Meaning.keyValue?).lookup key := by
  induction meanings with
  | nil => rfl
  | cons meaning rest ih =>
    rw [List.findSome?_cons, ih]
    cases meaning with
    | entry other value =>
      by_cases hkey : other = key
      · simp [Meaning.value?, Meaning.keyValue?, hkey]
      · have hne : (key == other) = false := beq_eq_false_iff_ne.mpr (Ne.symm hkey)
        simp [Meaning.value?, Meaning.keyValue?, hkey, List.lookup_cons, hne]
    | landmark name => rfl
    | elements es => rfl

end Line

/-! ### Metadata of a document -/

namespace Document

open Line

/-- The outline of a list of meanings that is read from its beginning. -/
theorem get?_outline (meanings : List Meaning) (key : Metadata.Key) :
    (meanings.foldl Outline.add .empty).metadata.get? key =
      (meanings.filterMap Meaning.keyValue?).lookup key := by
  rw [Outline.get?_foldl_add, findSome?_value?]
  exact Option.none_or ..

/-- A key has the value of the first line that gives one for it. -/
theorem get?_ofText (text : String) (key : Metadata.Key) :
    (ofText text).metadata.get? key = (entries (Text.lines text.toList)).lookup key := by
  rw [← entries_lines]
  exact get?_outline _ key

/-- A key without a value is none of those given. -/
theorem lookup_isNone_iff {entries : List (Metadata.Key × String)} {key : Metadata.Key} :
    (entries.lookup key).isNone = true ↔ key ∉ entries.map (·.1) := by
  rw [Option.isNone_iff_eq_none, List.lookup_eq_none_iff, List.mem_map]
  constructor
  · rintro hne ⟨entry, hentry, rfl⟩
    exact bne_iff_ne.mp (hne entry hentry) rfl
  · exact fun hno entry hentry => bne_iff_ne.mpr fun hkey => hno ⟨entry, hentry, hkey.symm⟩

end Document

/-! ### Dropped values -/

namespace Outline

open Line

/-- Whether taking in meanings comes to a value that is not recorded, because its key has one. -/
def Drops (meanings : List Meaning) : Prop :=
  ∃ above key value below, meanings = above ++ .entry key value :: below ∧
    ((above.foldl add empty).metadata.insert key value).2 = false

theorem insert_snd_eq_false_iff {meanings : List Meaning} {key : Metadata.Key} {value : String} :
    ((meanings.foldl add empty).metadata.insert key value).2 = false ↔
      key ∈ (meanings.filterMap Meaning.keyValue?).map (·.1) := by
  rw [Metadata.insert_snd, Document.get?_outline, ← Bool.not_eq_true, Document.lookup_isNone_iff,
    not_not]

/-- One meaning more: it may be the one whose value is dropped. -/
theorem drops_concat {meanings : List Meaning} {meaning : Meaning} :
    Drops (meanings ++ [meaning]) ↔ Drops meanings ∨
      ∃ key value, meaning = .entry key value ∧
        ((meanings.foldl add empty).metadata.insert key value).2 = false := by
  constructor
  · rintro ⟨above, key, value, below, heq, hdrop⟩
    rcases List.eq_nil_or_concat below with rfl | ⟨init, last, rfl⟩
    · obtain ⟨rfl, hmeaning⟩ := List.append_inj' heq rfl
      exact .inr ⟨key, value, List.singleton_inj.mp hmeaning, hdrop⟩
    · rw [List.concat_eq_append, ← List.cons_append, ← List.append_assoc] at heq
      exact .inl ⟨above, key, value, init, (List.append_inj' heq rfl).1, hdrop⟩
  · rintro (⟨above, key, value, below, rfl, hdrop⟩ | ⟨key, value, rfl, hdrop⟩)
    · exact ⟨above, key, value, below ++ [meaning], by simp, hdrop⟩
    · exact ⟨meanings, key, value, [], rfl, hdrop⟩

/-- All meanings: no value is dropped exactly if no key has two entries. -/
theorem drops_iff (meanings : List Meaning) :
    Drops meanings ↔ ¬ ((meanings.filterMap Meaning.keyValue?).map (·.1)).Nodup := by
  induction meanings using List.reverseRecOn with
  | nil =>
    refine iff_of_false ?_ (not_not.mpr List.nodup_nil)
    rintro ⟨above, key, value, below, heq, -⟩
    exact absurd heq.symm (List.append_ne_nil_of_right_ne_nil _ (List.cons_ne_nil _ _))
  | append_singleton meanings meaning ih =>
    -- the last meaning adds a dropped value or a repeated key only if it is an entry
    rw [drops_concat, ih, List.filterMap_append, List.map_append]
    cases hentry : meaning.keyValue? with
    | none =>
      have hno : ¬ ∃ key value, meaning = .entry key value ∧
          ((meanings.foldl add empty).metadata.insert key value).2 = false := by
        rintro ⟨key, value, rfl, -⟩
        simp [Meaning.keyValue?] at hentry
      simp [hentry, hno]
    | some entry =>
      obtain ⟨key, value⟩ := entry
      obtain rfl := Meaning.keyValue?_eq_some_iff.mp hentry
      have hlast : (∃ other value', Meaning.entry key value = .entry other value' ∧
          ((meanings.foldl add empty).metadata.insert other value').2 = false) ↔
          key ∈ (meanings.filterMap Meaning.keyValue?).map (·.1) := by
        constructor
        · rintro ⟨_, _, heq, hdrop⟩
          obtain ⟨rfl, rfl⟩ := Meaning.entry.inj heq
          exact insert_snd_eq_false_iff.mp hdrop
        · exact fun hmem => ⟨key, value, rfl, insert_snd_eq_false_iff.mpr hmem⟩
      rw [hlast]
      have hsnoc : [Meaning.entry key value].filterMap Meaning.keyValue? = [(key, value)] := rfl
      rw [hsnoc, List.map_singleton, ← List.concat_eq_append, List.nodup_concat]
      tauto

end Outline

end Wireframe
