import Wireframe.Proofs.Document.Sections
import Wireframe.Proofs.Text.Cuts
import Wireframe.Proofs.Text.Runs

/-!
# The links of a line

A link is written `[text]` or `[text](url)`. What that means where brackets stand in brackets, stay
open or hold nothing is said by the one cut of a line into links and gaps (`links_cut`). An opening
bracket in a gap is closed at once or not at all, so a link starts at the first bracket with which
neither is the case; its text ends at the first closing bracket, and a destination that follows at
once belongs to it.
-/

namespace Wireframe.Line

variable {cs after : List Char}

/-- How a destination is written behind the text of a link. -/
def writtenUrl : Option (List Char) → List Char
  | some url => '(' :: (url ++ [')'])
  | none => []

/-- How a link is written. -/
def LinkSpan.written (span : LinkSpan) : List Char :=
  '[' :: (span.text ++ ']' :: writtenUrl span.url)

/-- Whether a list starts with a destination: characters other than `)` between parentheses. -/
def StartsWithUrl (cs : List Char) : Prop :=
  ∃ url rest, cs = '(' :: (url ++ ')' :: rest) ∧ url ≠ [] ∧ ')' ∉ url

/-- Whether a link may stand in front of the rest of a line: its text ends at the first `]`, its
destination at the first `)`, neither is empty, and it has a destination if one follows. -/
structure LinkSpan.Fits (span : LinkSpan) (after : List Char) : Prop where
  text_ne_nil : span.text ≠ []
  text_ends : ']' ∉ span.text
  url_ne_nil : ∀ url ∈ span.url, url ≠ []
  url_ends : ∀ url ∈ span.url, ')' ∉ url
  not_startsWithUrl : span.url = none → ¬ StartsWithUrl after

/-- Whether a list starts with a bracket that is closed, but not at once. -/
def OpensLink (cs : List Char) : Prop :=
  ∃ inside, cs = '[' :: inside ∧ inside.head? ≠ some ']' ∧ ']' ∈ inside

/-- Links as spans of a line. -/
def linkForm : Text.SpanForm LinkSpan := ⟨LinkSpan.written, LinkSpan.Fits, OpensLink⟩

/-! ### Links at the head of a list -/

theorem destination?_append {url : List Char} (hne : url ≠ []) (hnot : ')' ∉ url)
    (rest : List Char) : destination? ('(' :: (url ++ ')' :: rest)) = some url := by
  obtain ⟨c, tail, rfl⟩ := List.exists_cons_of_ne_nil hne
  rw [destination?, Text.span_ne_append hnot]

/-- A destination stands in parentheses and is not empty. -/
theorem startsWithUrl_of_destination? {url : List Char} (h : destination? cs = some url) :
    ∃ rest, cs = '(' :: (url ++ ')' :: rest) ∧ url ≠ [] ∧ ')' ∉ url := by
  unfold destination? at h
  split at h
  · next inside =>
    by_cases hmem : ')' ∈ inside
    · obtain ⟨found, rest, rfl, hfound⟩ := List.eq_append_cons_of_mem hmem
      rw [Text.span_ne_append hfound] at h
      cases found with
      | nil => exact absurd h.symm (Option.some_ne_none _)
      | cons c tail =>
        obtain rfl := Option.some_inj.mp h
        exact ⟨rest, rfl, List.cons_ne_nil _ _, hfound⟩
    · -- the parenthesis stays open
      rw [Text.span_ne_of_not_mem hmem] at h
      cases inside <;> exact absurd h.symm (Option.some_ne_none _)
  · exact absurd h.symm (Option.some_ne_none _)

/-- No destination is read exactly where none is written. -/
theorem destination?_eq_none_iff : destination? cs = none ↔ ¬ StartsWithUrl cs := by
  constructor
  · rintro h ⟨url, rest, rfl, hne, hnot⟩
    exact Option.some_ne_none _ ((destination?_append hne hnot rest).symm.trans h)
  · intro h
    by_contra hsome
    obtain ⟨url, hurl⟩ := Option.ne_none_iff_exists'.mp hsome
    obtain ⟨rest, hcs⟩ := startsWithUrl_of_destination? hurl
    exact h ⟨url, rest, hcs⟩

/-- A link opens with a text in brackets that is not empty. -/
theorem opensLink_iff :
    OpensLink cs ↔ ∃ text after, cs = '[' :: (text ++ ']' :: after) ∧ text ≠ [] ∧ ']' ∉ text := by
  constructor
  · rintro ⟨inside, rfl, hhead, hmem⟩
    obtain ⟨text, after, rfl, htext⟩ := List.eq_append_cons_of_mem hmem
    refine ⟨text, after, rfl, ?_, htext⟩
    rintro rfl
    exact hhead rfl
  · rintro ⟨text, after, rfl, hne, htext⟩
    obtain ⟨c, tail, rfl⟩ := List.exists_cons_of_ne_nil hne
    refine ⟨_, rfl, fun hhead => ?_, List.mem_append_right _ (List.mem_cons_self ..)⟩
    exact htext (Option.some_inj.mp hhead ▸ List.mem_cons_self ..)

/-- A closed bracket with something in it makes a link, with the destination that follows. -/
theorem linkAt?_append {text : List Char} (hne : text ≠ []) (htext : ']' ∉ text)
    (after : List Char) :
    linkAt? ('[' :: (text ++ ']' :: after)) =
      some (⟨text, destination? after⟩,
        text.length + 2 + (writtenUrl (destination? after)).length) := by
  obtain ⟨c, tail, rfl⟩ := List.exists_cons_of_ne_nil hne
  rw [linkAt?, Text.span_ne_append htext]
  cases hurl : destination? after with
  | none => simp [hurl, writtenUrl]
  | some url =>
    simp only [hurl, writtenUrl, List.length_cons, List.length_append, List.length_nil]
    congr 2
    omega

/-- No link is read exactly where none opens. -/
theorem linkAt?_eq_none_iff : linkAt? cs = none ↔ ¬ OpensLink cs := by
  rw [opensLink_iff]
  constructor
  · rintro h ⟨text, after, rfl, hne, htext⟩
    exact Option.some_ne_none _ ((linkAt?_append hne htext after).symm.trans h)
  · intro h
    unfold linkAt?
    split
    · next inside =>
      by_cases hmem : ']' ∈ inside
      · obtain ⟨text, after, rfl, htext⟩ := List.eq_append_cons_of_mem hmem
        cases text with
        | nil => rw [Text.span_ne_append htext]
        | cons c tail => exact absurd ⟨_, after, rfl, List.cons_ne_nil _ _, htext⟩ h
      · rw [Text.span_ne_of_not_mem hmem]
        cases inside <;> rfl
    · rfl

/-- A link is read exactly as it is written and fits what follows. -/
theorem linkAt?_eq_some_iff {span : LinkSpan} {width : ℕ} :
    linkAt? cs = some (span, width) ↔
      ∃ after, cs = span.written ++ after ∧ span.Fits after ∧ width = span.written.length := by
  constructor
  · intro h
    have hopens : OpensLink cs := by
      by_contra hnot
      exact Option.some_ne_none _ (h.symm.trans (linkAt?_eq_none_iff.mpr hnot))
    obtain ⟨text, after, rfl, hne, htext⟩ := opensLink_iff.mp hopens
    rw [linkAt?_append hne htext] at h
    obtain ⟨rfl, rfl⟩ := Prod.mk.inj (Option.some_inj.mp h)
    -- a destination belongs to the link if there is one right behind the text
    cases hurl : destination? after with
    | none =>
      refine ⟨after, ?_, ?_, ?_⟩
      · simp [LinkSpan.written, writtenUrl]
      · exact ⟨hne, htext, by simp, by simp, fun _ => destination?_eq_none_iff.mp hurl⟩
      · simp [LinkSpan.written, writtenUrl]
    | some url =>
      obtain ⟨rest, rfl, hurlne, hurlends⟩ := startsWithUrl_of_destination? hurl
      refine ⟨rest, ?_, ?_, ?_⟩
      · simp [LinkSpan.written, writtenUrl]
      · exact ⟨hne, htext, by simpa using hurlne, by simpa using hurlends, by simp⟩
      · simp [LinkSpan.written, writtenUrl]
        omega
  · rintro ⟨after, rfl, hfits, rfl⟩
    obtain ⟨text, url⟩ := span
    have hurl : destination? (writtenUrl url ++ after) = url := by
      cases url with
      | none => exact destination?_eq_none_iff.mpr (hfits.not_startsWithUrl rfl)
      | some url =>
        have := destination?_append (hfits.url_ne_nil url rfl) (hfits.url_ends url rfl) after
        simpa [writtenUrl] using this
    have hlink := linkAt?_append hfits.text_ne_nil hfits.text_ends (writtenUrl url ++ after)
    have hlength : (LinkSpan.mk text url).written.length =
        text.length + 2 + (writtenUrl url).length := by
      simp only [LinkSpan.written, List.length_cons, List.length_append]
      omega
    rw [hurl] at hlink
    rw [hlength, ← hlink]
    simp [LinkSpan.written]

/-! ### The cut of a line -/

/-- The reader recognises the links of a line. -/
theorem recognisedBy_linkAt? (line : List Char) : linkForm.RecognisedBy linkAt? line where
  written_ne_nil _ := List.cons_ne_nil _ _
  eq_some_iff _ _ _ _ := linkAt?_eq_some_iff
  eq_none_iff _ _ := linkAt?_eq_none_iff

/-- The links of a line that does not open with a blank to fill in are what the rule for links makes
of it. -/
theorem meaning?_links {line : List Char} (h : ¬ ['[', '_'] <+: line) :
    Rule.links.meaning? line = someElements ((links line).map LinkSpan.element) := by
  rw [Rule.meaning?, proseLinks, if_neg (by rwa [List.isPrefixOf_iff_prefix])]

/-- **The links of a line are those of its one cut.** Unless the line opens with a blank to fill in,
it stands for them, and for nothing if there are none. -/
theorem links_cut (line : List Char) :
    ∃ cut, linkForm.Cuts line cut ∧ (∀ other, linkForm.Cuts line other → other = cut) ∧
      links line = cut.contents ∧
      (¬ ['[', '_'] <+: line → Rule.links.meaning? line =
        if cut.spans = [] then none
        else some (.elements (cut.contents.map LinkSpan.element))) := by
  obtain ⟨cut, hcut, hunique, hlinks⟩ := (recognisedBy_linkAt? line).exists_cut_unique
  refine ⟨cut, hcut, hunique, hlinks, fun hopening => ?_⟩
  rw [meaning?_links hopening, links, hlinks, someElements_eq_ite]
  simp only [List.map_eq_nil_iff, Text.Cut.contents_eq_nil_iff]

/-- A bracket in a bracket, an empty bracket, an empty destination, and one that ends early. -/
example : links "[[x]](a) [](b)[c]()[d](e)f)".toList =
    [⟨"[x".toList, none⟩, ⟨"c".toList, none⟩, ⟨"d".toList, some "e".toList⟩] := by
  decide

end Wireframe.Line
