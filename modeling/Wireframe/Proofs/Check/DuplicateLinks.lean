import Wireframe.Proofs.Check.LinkRecords
import Wireframe.Text.Lines

/-!
# Which links are reported as duplicates

A link should be reported exactly if it stands on several lines, and with the numbers of these
lines (`ReportsDuplicates`). The check tells links apart by their keys, and the key does not
determine the link: a bar may as well stand in a text or in a destination, and a destination may be
the word for a missing one.

The check is right about a page exactly if this does no harm on it (`reportsDuplicates_iff`): a
link that shares its key with an earlier one stands on a single line, and the first link with the
key stands there too. That is so if no text holds a bar and no destination is the word for a
missing one (`reportsDuplicates_of_plain`), but not for every page (`not_reportsDuplicates_bar`).
-/

namespace Wireframe.Check

/-- The diagnostic that reports a link with the numbers of its lines. -/
def LinkUse.report (link : LinkUse) (numbers : List ℕ) : Diagnostic :=
  ⟨.duplicateLink (String.ofList link.text) (link.url.map String.ofList) numbers, numbers⟩

/-- Whether the links that are reported are those that stand on several lines, each with the
numbers of its own lines. -/
def ReportsDuplicates (lines : List (List Char)) : Prop :=
  ∀ (link : LinkUse) (numbers : List ℕ), link.report numbers ∈ duplicateLinks lines ↔
    numbers = linesOf lines link ∧ 1 < numbers.length

/-- The first link of a page with the key of a given link. -/
def firstWithKey? (lines : List (List Char)) (link : LinkUse) : Option LinkUse :=
  (pageLinks lines).find? (·.key = link.key)

/-- Whether every link that shares its key with another, earlier link stands on a single line, on
which the first link with the key stands as well. -/
def SharesKeysSafely (lines : List (List Char)) : Prop :=
  ∀ link ∈ pageLinks lines, ∀ first ∈ firstWithKey? lines link, first ≠ link →
    ∃ n ∈ linesOf lines first, linesOf lines link = [n]

/-! ### Lines and links -/

/-- The links of a page are those of its lines. -/
theorem pageLinks_eq (lines : List (List Char)) : pageLinks lines = lines.flatMap linkUses := by
  have hfrom : ∀ start, (linkUsesFrom lines start).map (·.1) = lines.flatMap linkUses := by
    induction lines with
    | nil => exact fun _ => rfl
    | cons line rest ih =>
      intro start
      rw [linkUsesFrom, List.map_append, ih, List.map_map, List.flatMap_cons]
      exact congrArg (· ++ _) (List.map_id _)
  exact hfrom 1

/-- A link stands on some line of a page exactly if the page has it. -/
theorem linesOf_ne_nil_iff {lines : List (List Char)} {link : LinkUse} :
    linesOf lines link ≠ [] ↔ link ∈ pageLinks lines := by
  rw [pageLinks_eq, List.mem_flatMap]
  constructor
  · intro hne
    obtain ⟨n, hn⟩ := List.exists_mem_of_ne_nil _ hne
    obtain ⟨line, hline, other, hother, heq⟩ := mem_linesWhere.mp hn
    have hmem := List.mem_map_of_mem (f := Prod.fst) hline
    rw [List.zipIdx_map_fst] at hmem
    exact ⟨line, hmem, of_decide_eq_true heq ▸ hother⟩
  · rintro ⟨line, hline, hlink⟩
    rw [← List.zipIdx_map_fst 1 lines] at hline
    obtain ⟨⟨_, n⟩, hentry, rfl⟩ := List.mem_map.mp hline
    exact List.ne_nil_of_mem (mem_linesWhere.mpr ⟨_, hentry, link, hlink, by simp⟩)

/-- A line has a key if it has a link with it. -/
theorem mem_linesOfKey {lines : List (List Char)} {key : List Char} {n : ℕ} :
    n ∈ linesOfKey lines key ↔ ∃ link, link.key = key ∧ n ∈ linesOf lines link := by
  simp only [linesOfKey, linesOf, mem_linesWhere, decide_eq_true_eq]
  constructor
  · rintro ⟨line, hline, link, hlink, hkey⟩
    exact ⟨link, hkey, line, hline, link, hlink, rfl⟩
  · rintro ⟨_, hkey, line, hline, link, hlink, rfl⟩
    exact ⟨line, hline, link, hlink, hkey⟩

/-- A report tells which link it is about, and on which lines. -/
theorem report_inj {link other : LinkUse} {numbers others : List ℕ} :
    link.report numbers = other.report others ↔ link = other ∧ numbers = others := by
  constructor
  · intro h
    obtain ⟨text, url⟩ := link
    obtain ⟨text', url'⟩ := other
    simp only [LinkUse.report, Diagnostic.mk.injEq, Finding.duplicateLink.injEq] at h
    obtain ⟨⟨htext, hurl, hnumbers⟩, -⟩ := h
    have htext : text = text' := String.ofList_injective htext
    have hurl : url = url' := Option.map_injective (fun _ _ => String.ofList_injective) hurl
    rw [htext, hurl]
    exact ⟨rfl, hnumbers⟩
  · rintro ⟨rfl, rfl⟩
    rfl

/-- A key is reported if it stands on several lines, as the first link with it. -/
theorem report_mem_duplicateLinks {lines : List (List Char)} {link : LinkUse}
    {numbers : List ℕ} :
    link.report numbers ∈ duplicateLinks lines ↔
      firstWithKey? lines link = some link ∧ numbers = linesOfKey lines link.key ∧
        1 < numbers.length := by
  rw [duplicateLinks, linkRecords_eq, List.filterMap_map, List.mem_filterMap, firstWithKey?,
    ← mem_firstLinks]
  constructor
  · rintro ⟨first, hfirst, h⟩
    obtain ⟨hlength, hreport⟩ := Option.ite_none_right_eq_some.mp h
    obtain ⟨rfl, hnumbers⟩ := report_inj.mp (Option.some_inj.mp hreport)
    rw [← hnumbers]
    exact ⟨hfirst, rfl, hlength⟩
  · rintro ⟨hfirst, rfl, hlength⟩
    exact ⟨link, hfirst, if_pos hlength⟩

/-! ### Links that share a key -/

theorem key_of_firstWithKey? {lines : List (List Char)} {link first : LinkUse}
    (h : firstWithKey? lines link = some first) : first.key = link.key := by
  simpa using List.find?_some h

theorem mem_of_firstWithKey? {lines : List (List Char)} {link first : LinkUse}
    (h : firstWithKey? lines link = some first) : first ∈ pageLinks lines :=
  List.mem_of_find?_eq_some h

theorem firstWithKey?_congr {lines : List (List Char)} {link other : LinkUse}
    (h : link.key = other.key) : firstWithKey? lines link = firstWithKey? lines other := by
  rw [firstWithKey?, firstWithKey?, h]

theorem exists_firstWithKey? {lines : List (List Char)} {link : LinkUse}
    (h : link ∈ pageLinks lines) : ∃ first, firstWithKey? lines link = some first :=
  Option.isSome_iff_exists.mp (List.find?_isSome.mpr ⟨link, h, by simp⟩)

/-- If sharing keys does no harm, the lines of a key are those of the first link with it. -/
theorem linesOfKey_eq_linesOf {lines : List (List Char)} (hsafe : SharesKeysSafely lines)
    {link : LinkUse} (hfirst : firstWithKey? lines link = some link) :
    linesOfKey lines link.key = linesOf lines link := by
  refine (linesWhere_pairwise _ _ _).eq_of_mem_iff (linesWhere_pairwise _ _ _) fun {n} => ?_
  change n ∈ linesOfKey lines link.key ↔ n ∈ linesOf lines link
  refine mem_linesOfKey.trans ⟨?_, fun hn => ⟨link, rfl, hn⟩⟩
  rintro ⟨other, hkey, hn⟩
  by_cases heq : link = other
  · exact heq ▸ hn
  · have hother := linesOf_ne_nil_iff.mp (List.ne_nil_of_mem hn)
    have hsame : firstWithKey? lines other = some link := (firstWithKey?_congr hkey).trans hfirst
    obtain ⟨m, hm, hlines⟩ := hsafe other hother link hsame heq
    rw [hlines, List.mem_singleton] at hn
    exact hn ▸ hm

/-- Where keys are shared safely, the links that repeat are those that are reported. -/
theorem reportsDuplicates_of_sharesKeysSafely {lines : List (List Char)}
    (hsafe : SharesKeysSafely lines) : ReportsDuplicates lines := by
  intro link numbers
  rw [report_mem_duplicateLinks]
  constructor
  · rintro ⟨hfirst, hnumbers, hlength⟩
    exact ⟨hnumbers.trans (linesOfKey_eq_linesOf hsafe hfirst), hlength⟩
  · rintro ⟨rfl, hlength⟩
    have hne : linesOf lines link ≠ [] := List.ne_nil_of_length_pos (Nat.zero_lt_of_lt hlength)
    have hmem := linesOf_ne_nil_iff.mp hne
    obtain ⟨first, hfirst⟩ := exists_firstWithKey? hmem
    by_cases heq : first = link
    · rw [heq] at hfirst
      exact ⟨hfirst, (linesOfKey_eq_linesOf hsafe hfirst).symm, hlength⟩
    · -- a link that comes second with its key stands on one line only
      obtain ⟨n, -, hlines⟩ := hsafe link hmem first hfirst heq
      rw [hlines] at hlength
      exact absurd hlength (Nat.lt_irrefl 1)

/-- Whether a key determines the link: no bar in the text, and another destination than the word
for a missing one. -/
def LinkUse.Plain (link : LinkUse) : Prop :=
  '|' ∉ link.text ∧ link.url ≠ some LinkUse.noDestination

private theorem append_bar_inj {as bs cs ds : List Char} (ha : '|' ∉ as) (hb : '|' ∉ bs)
    (h : as ++ '|' :: cs = bs ++ '|' :: ds) : as = bs ∧ cs = ds := by
  induction as generalizing bs with
  | nil =>
    cases bs with
    | nil => exact ⟨rfl, (List.cons.inj h).2⟩
    | cons b bs => exact absurd ((List.cons.inj h).1 ▸ List.mem_cons_self ..) hb
  | cons a as ih =>
    rw [List.mem_cons, not_or] at ha
    cases bs with
    | nil => exact absurd (List.cons.inj h).1.symm ha.1
    | cons b bs =>
      rw [List.mem_cons, not_or] at hb
      obtain ⟨hhead, htail⟩ := List.cons.inj h
      obtain ⟨rfl, hrest⟩ := ih ha.2 hb.2 htail
      exact ⟨by rw [hhead], hrest⟩

/-- The key of a plain link tells its text and destination. -/
theorem LinkUse.Plain.eq_of_key_eq {link other : LinkUse} (h : link.Plain) (ho : other.Plain)
    (hkey : link.key = other.key) : link = other := by
  obtain ⟨text, url⟩ := link
  obtain ⟨text', url'⟩ := other
  obtain ⟨htext, hurl⟩ := append_bar_inj h.1 ho.1 hkey
  have hurl' : url = url' := by
    cases url with
    | none =>
      cases url' with
      | none => rfl
      | some u => exact absurd (congrArg some hurl.symm) ho.2
    | some u =>
      cases url' with
      | none => exact absurd (congrArg some hurl) h.2
      | some u' => exact congrArg some hurl
  change text = text' at htext
  rw [htext, hurl']

/-- The check is right about a page whose links are all determined by their keys. -/
theorem reportsDuplicates_of_plain {lines : List (List Char)}
    (h : ∀ link ∈ pageLinks lines, link.Plain) : ReportsDuplicates lines := by
  refine reportsDuplicates_of_sharesKeysSafely fun link hmem first hfirst hne => ?_
  have heq := (h first (mem_of_firstWithKey? hfirst)).eq_of_key_eq (h link hmem)
    (key_of_firstWithKey? hfirst)
  exact absurd heq hne

/-- Two different lines are more than one. -/
theorem one_lt_length_of_mem {numbers : List ℕ} {m n : ℕ} (hm : m ∈ numbers)
    (hn : n ∈ numbers) (hne : m ≠ n) : 1 < numbers.length := by
  rcases numbers with _ | ⟨a, _ | ⟨b, rest⟩⟩
  · exact absurd hm List.not_mem_nil
  · rw [List.mem_singleton] at hm hn
    exact absurd (hm.trans hn.symm) hne
  · simp

/-- Where the right links are reported, no key mixes up two of them. -/
theorem sharesKeysSafely_of_reportsDuplicates {lines : List (List Char)}
    (hreports : ReportsDuplicates lines) : SharesKeysSafely lines := by
  intro link hmem first hfirst hne
  have hkey := key_of_firstWithKey? hfirst
  -- the link itself is never reported, so it stands on one line only
  have hone : ¬ 1 < (linesOf lines link).length := fun hlength => by
    have := (hreports link _).mpr ⟨rfl, hlength⟩
    rw [report_mem_duplicateLinks] at this
    exact hne (Option.some_inj.mp (hfirst.symm.trans this.1))
  obtain ⟨n, hlines⟩ : ∃ n, linesOf lines link = [n] := by
    have := List.length_pos_of_ne_nil (linesOf_ne_nil_iff.mpr hmem)
    exact List.length_eq_one_iff.mp (by omega)
  have hn : n ∈ linesOf lines link := by rw [hlines]; exact List.mem_singleton_self n
  refine ⟨n, ?_, hlines⟩
  obtain ⟨m, hm⟩ := List.exists_mem_of_ne_nil _
    (linesOf_ne_nil_iff.mpr (mem_of_firstWithKey? hfirst))
  by_cases heq : m = n
  · exact heq ▸ hm
  · -- the key stands on two lines, so the first link is reported with both
    have hmkey : m ∈ linesOfKey lines first.key := mem_linesOfKey.mpr ⟨first, rfl, hm⟩
    have hnkey : n ∈ linesOfKey lines first.key := mem_linesOfKey.mpr ⟨link, hkey.symm, hn⟩
    have hreport := (hreports first (linesOfKey lines first.key)).mp
      (report_mem_duplicateLinks.mpr ⟨(firstWithKey?_congr hkey).trans hfirst, rfl,
        one_lt_length_of_mem hmkey hnkey heq⟩)
    exact hreport.1 ▸ hnkey

/-- **The check is right about a page exactly if sharing keys does no harm on it.** -/
theorem reportsDuplicates_iff (lines : List (List Char)) :
    ReportsDuplicates lines ↔ SharesKeysSafely lines :=
  ⟨sharesKeysSafely_of_reportsDuplicates, reportsDuplicates_of_sharesKeysSafely⟩

/-- Two links that are different in text and destination, and are reported as one. -/
theorem not_reportsDuplicates_bar :
    ¬ ReportsDuplicates (Text.lines "[a|b](c)\n[a](b|c)".toList) := by
  intro hreports
  have hlines := (hreports ⟨"a|b".toList, some "c".toList⟩ [1, 2]).mp (by decide)
  exact absurd hlines.1 (by decide)

end Wireframe.Check
