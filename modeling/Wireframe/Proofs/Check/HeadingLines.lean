import Wireframe.Check.Headings
import Wireframe.Proofs.Document.Entries
import Wireframe.Proofs.Line.Rules
import Wireframe.Proofs.Text.Blanks
import Wireframe.Proofs.Text.Runs

/-!
# Headings of the outline and headings of the page

The heading checks look for headings in raw lines, and reading a page looks for them in trimmed
ones. The checks want a space behind the markers and ask for no text; reading takes any blank, but
wants a text, and takes a line for a skip link first.

So the checks speak of the headings that are drawn only where the two agree. They never differ about
a level, and `headings_agree` says of every line on which side alone it is a heading.
-/

namespace Wireframe.Check

open Line

variable {line cs : List Char} {level : ℕ}

/-- Whether the checks record a line of a page, between the lines above and below it, as a heading
of some level. -/
def Records (above : List (List Char)) (line : List Char) (below : List (List Char)) (level : ℕ) :
    Prop :=
  ⟨level, above.length + 1⟩ ∈ headingMarks (above ++ line :: below)

/-- Whether a line stands for a heading of some level when the page is read. -/
def StandsForHeading (line : List Char) (level : ℕ) : Prop :=
  ∃ found ∈ read? line, ∃ text, .heading level text ∈ found.2.content

/-! ### Markers -/

theorem span_markers (n : ℕ) {c : Char} (hc : c ≠ '#') (rest : List Char) :
    (List.replicate n '#' ++ c :: rest).span (· == '#') = (List.replicate n '#', c :: rest) :=
  Text.span_append_cons (fun _ hmem => by simp [List.eq_of_mem_replicate hmem]) (by simpa using hc)
    rest

/-- A line is nothing but markers, or another character stands behind them. -/
theorem markers_cases (line : List Char) : line.span (· == '#') = (line, []) ∨
    ∃ n c rest, c ≠ '#' ∧ line = List.replicate n '#' ++ c :: rest := by
  rcases Text.span_cases (· == '#') line with hall | ⟨run, c, rest, rfl, hrun, hc⟩
  · exact .inl (Text.span_of_all hall)
  · refine .inr ⟨run.length, c, rest, by simpa using hc, ?_⟩
    rw [← List.eq_replicate_of_mem fun d hd => by simpa using hrun d hd]

/-- The markers of a line and what stands behind them are determined. -/
theorem markers_eq {m n : ℕ} {c d : Char} {as bs : List Char} (hc : c ≠ '#') (hd : d ≠ '#')
    (h : List.replicate m '#' ++ c :: as = List.replicate n '#' ++ d :: bs) :
    m = n ∧ c = d ∧ as = bs := by
  have hspan := span_markers m hc as
  rw [h, span_markers n hd] at hspan
  obtain ⟨hmarkers, hrest⟩ := Prod.mk.inj hspan
  obtain ⟨rfl, rfl⟩ := List.cons.inj hrest
  exact ⟨by simpa using (congrArg List.length hmarkers).symm, rfl, rfl⟩

theorem ne_marker_of_isBlank {c : Char} (h : Text.isBlank c = true) : c ≠ '#' := by
  rintro rfl
  exact absurd h (by decide)

/-- No blank stands in front of the markers of a line that starts with them. -/
theorem indent_eq_nil {m n : ℕ} (hn : 1 ≤ n) {indent as bs : List Char}
    (hindent : Text.allBlank indent = true)
    (h : indent ++ (List.replicate m '#' ++ as) = List.replicate n '#' ++ bs) : indent = [] := by
  obtain ⟨k, rfl⟩ := Nat.exists_eq_add_of_le' hn
  cases indent with
  | nil => rfl
  | cons b indent =>
    obtain rfl : b = '#' := by
      rw [List.replicate_succ] at h
      exact (List.cons.inj h).1
    exact absurd (List.mem_cons_self ..) (Text.not_mem_of_allBlank (by decide) hindent)

/-! ### What the checks record -/

/-- The check takes one to six markers and a blank for a heading. -/
theorem markedLevel?_eq_some_iff : markedLevel? line = some level ↔
    1 ≤ level ∧ level ≤ 6 ∧ ∃ rest, line = List.replicate level '#' ++ ' ' :: rest := by
  rw [markedLevel?]
  constructor
  · intro h
    rcases markers_cases line with hspan | ⟨n, c, rest, hc, rfl⟩
    · rw [hspan] at h
      exact absurd h.symm (Option.some_ne_none _)
    · rw [span_markers n hc] at h
      split at h
      · next hspace =>
        obtain ⟨rfl, hrest⟩ := Prod.mk.inj hspace
        obtain ⟨rfl, rfl⟩ := List.cons.inj hrest
        obtain ⟨hcount, hlevel⟩ := Option.ite_none_left_eq_some.mp h
        obtain rfl := Option.some_inj.mp hlevel
        simp at hcount ⊢
        omega
      · exact absurd h.symm (Option.some_ne_none _)
  · rintro ⟨hlow, hhigh, rest, rfl⟩
    rw [span_markers level (by decide)]
    simp
    omega

/-- A mark tells the line and the level of a heading there. -/
theorem mem_headingMarks_iff {lines : List (List Char)} {mark : HeadingMark} :
    mark ∈ headingMarks lines ↔
      1 ≤ mark.line ∧ ∃ line ∈ lines[mark.line - 1]?, markedLevel? line = some mark.level := by
  simp only [headingMarks, numbered, List.mem_filterMap, Option.map_eq_some_iff, Prod.exists,
    List.mk_mem_zipIdx_iff_le_and_getElem?_sub, Option.mem_def]
  constructor
  · rintro ⟨line, number, ⟨hnumber, hline⟩, level, hlevel, rfl⟩
    exact ⟨hnumber, line, hline, hlevel⟩
  · rintro ⟨hnumber, line, hline, hlevel⟩
    exact ⟨line, mark.line, ⟨hnumber, hline⟩, mark.level, hlevel, rfl⟩

theorem records_iff {above below : List (List Char)} :
    Records above line below level ↔ markedLevel? line = some level := by
  simp [Records, mem_headingMarks_iff]

/-! ### What is read as a heading -/

/-- The text of a heading is what stands behind the markers and the blanks that follow them, up to
the next line feed. -/
theorem heading?_written {b c : Char} {run text : List Char} (hlow : 1 ≤ level) (hhigh : level ≤ 6)
    (hb : Text.isBlank b = true) (hrun : ∀ d ∈ run, Text.isBlank d = true)
    (hc : Text.isBlank c = false) :
    heading? (List.replicate level '#' ++ b :: (run ++ c :: text)) =
      some (level, (c :: text).takeWhile (· != '\n')) := by
  have hblanks : ∀ d ∈ b :: run, Text.isBlank d = true := List.forall_mem_cons.mpr ⟨hb, hrun⟩
  have hspan := Text.span_append_cons hblanks hc text
  rw [List.cons_append] at hspan
  simp only [heading?, span_markers level (ne_marker_of_isBlank hb), hspan]
  simp
  omega

/-- A blank behind the markers and a text behind that make a heading. -/
theorem heading?_marked {b : Char} {rest : List Char} (hlow : 1 ≤ level) (hhigh : level ≤ 6)
    (hb : Text.isBlank b = true) (hrest : Text.allBlank rest = false) :
    ∃ text, heading? (List.replicate level '#' ++ b :: rest) = some (level, text) := by
  rcases Text.span_cases Text.isBlank rest with hall | ⟨run, c, text, rfl, hrun, hc⟩
  · rw [Text.allBlank, List.all_eq_true.mpr hall] at hrest
    exact Bool.noConfusion hrest
  · exact ⟨_, heading?_written hlow hhigh hb hrun hc⟩

/-- The document takes one to six markers and any blank for a heading. -/
theorem exists_of_heading? {text : List Char} (h : heading? cs = some (level, text)) :
    1 ≤ level ∧ level ≤ 6 ∧
      ∃ b rest, cs = List.replicate level '#' ++ b :: rest ∧ Text.isBlank b = true := by
  rcases markers_cases cs with hspan | ⟨n, b, rest, hb, rfl⟩
  · -- no blank stands behind the markers
    rw [heading?, hspan] at h
    simp at h
  · simp only [heading?, span_markers n hb] at h
    split at h
    · exact absurd h.symm (Option.some_ne_none _)
    · next hcount =>
      have hlevel : (List.replicate n '#').length = level := by
        split at h
        · split at h
          · exact (Prod.mk.inj (Option.some_inj.mp h)).1
          · exact absurd h.symm (Option.some_ne_none _)
        · exact (Prod.mk.inj (Option.some_inj.mp h)).1
      rw [List.length_replicate] at hlevel
      subst hlevel
      cases hblank : Text.isBlank b with
      | false => simp [hblank, List.span_eq_takeWhile_dropWhile] at hcount
      | true =>
        simp at hcount
        exact ⟨by omega, by omega, b, rest, rfl, hblank⟩

/-- A line has a heading of a level if that many markers stand in it behind no more than blanks, and
a blank and a text behind them. -/
theorem heading?_trim_iff : (∃ text, heading? (Text.trim line) = some (level, text)) ↔
    1 ≤ level ∧ level ≤ 6 ∧ ∃ indent b rest,
      line = indent ++ (List.replicate level '#' ++ b :: rest) ∧ Text.allBlank indent = true ∧
        Text.isBlank b = true ∧ Text.allBlank rest = false := by
  constructor
  · rintro ⟨text, htext⟩
    obtain ⟨hlow, hhigh, b, rest, htrim, hb⟩ := exists_of_heading? htext
    obtain ⟨indent, after, hline, hindent, hafter⟩ := Text.exists_append_trim line
    rw [htrim, List.append_assoc, List.cons_append] at hline
    refine ⟨hlow, hhigh, indent, b, rest ++ after, hline, hindent, hb, ?_⟩
    -- otherwise the blank behind the markers would be trimmed as well
    by_contra hall
    rw [Bool.not_eq_false, Text.allBlank_append] at hall
    have hblanks : Text.allBlank (b :: rest) = true := by
      rw [Text.allBlank, List.all_cons, hb, Bool.true_and]
      exact hall.1
    exact List.cons_ne_nil b rest (Text.eq_nil_of_trim_eq htrim hblanks)
  · rintro ⟨hlow, hhigh, indent, b, rest, rfl, hindent, hb, hrest⟩
    obtain ⟨run, c, after, rfl, hc⟩ := Text.exists_not_blank hrest
    obtain ⟨k, rfl⟩ := Nat.exists_eq_add_of_le' hlow
    have hstart : Text.trimStart (List.replicate (k + 1) '#' ++ b :: (run ++ c :: after)) =
        List.replicate (k + 1) '#' ++ b :: (run ++ c :: after) := rfl
    have hend : Text.trimEnd (List.replicate (k + 1) '#' ++ b :: (run ++ c :: after)) =
        List.replicate (k + 1) '#' ++ b :: (run ++ c :: Text.trimEnd after) := by
      simpa using Text.trimEnd_append (List.replicate (k + 1) '#' ++ b :: run) hc after
    rw [Text.trim_append_of_allBlank_left hindent, Text.trim, hstart, hend]
    exact heading?_marked hlow hhigh hb (List.all_eq_false.mpr ⟨c, by simp, by simp [hc]⟩)

/-! ### Lines that are read as headings -/

/-- Blanks around a line do not make a skip link. -/
theorem isSkipLink_trim (line : List Char) : isSkipLink (Text.trim line) = isSkipLink line := by
  have hwords : skipWords = 's' :: "kip to mai".toList ++ ['n'] := by decide
  rw [isSkipLink, isSkipLink, hwords]
  exact Text.occurs_trim (by decide) (by decide)

/-- A line that begins with a marker holds no metadata. -/
theorem entry?_marker (cs : List Char) : Metadata.entry? ('#' :: cs) = none := by
  have hopenings : ∀ opening ∈ Metadata.Key.openings, opening.1.toList.head?.any (· ≠ '#') := by
    decide
  rw [Option.eq_none_iff_forall_ne_some]
  rintro ⟨key, value⟩ h
  obtain ⟨opening, rest, hmem, hline, -⟩ := Metadata.entry?_eq_some_iff.mp h
  have hhead := hopenings _ hmem
  cases hopening : opening.toList with
  | nil => simp [hopening] at hhead
  | cons c tail =>
    rw [hopening] at hline
    obtain rfl : '#' = c := (List.cons.inj hline).1
    simp [hopening] at hhead

/-- A line is read as a heading if it has one and is no skip link: no other rule that comes before
takes a line that starts with a marker. -/
theorem standsForHeading_iff : StandsForHeading line level ↔
    isSkipLink line = false ∧ ∃ text, heading? (Text.trim line) = some (level, text) := by
  rw [← isSkipLink_trim]
  constructor
  · rintro ⟨⟨rule, meaning⟩, hread, text, hmem⟩
    obtain ⟨-, hbefore, hmeaning⟩ := read?_eq_some_iff.mp hread
    obtain rfl : rule = .heading := Rule.eq_of_mem hmeaning hmem
    have hskip := hbefore .skipLink (by decide)
    obtain ⟨found, hfound, rfl⟩ := Option.map_eq_some_iff.mp hmeaning
    obtain ⟨rfl, -⟩ := Element.heading.inj (List.mem_singleton.mp hmem)
    exact ⟨by simpa [Rule.meaning?] using hskip, found.2, hfound⟩
  · rintro ⟨hskip, text, htext⟩
    obtain ⟨hlow, -, b, rest, htrim, -⟩ := exists_of_heading? htext
    obtain ⟨k, rfl⟩ := Nat.exists_eq_add_of_le' hlow
    have hread : read? line =
        some (.heading, .elements [.heading (k + 1) (String.ofList text)]) := by
      refine read?_eq_some_iff.mpr ⟨by simp [htrim], fun earlier hearlier => ?_, ?_⟩
      · -- three rules come before the one for headings, and none of them takes the line
        have hcases : earlier = .metadata ∨ earlier = .landmark ∨ earlier = .skipLink := by
          simpa [Rule.before, Rule.inOrder] using hearlier
        rcases hcases with rfl | rfl | rfl
        · rw [htrim, List.replicate_succ, List.cons_append, Rule.meaning?, entry?_marker,
            Option.map_none]
        · rw [htrim]
          rfl
        · simp [Rule.meaning?, hskip]
      · rw [Rule.meaning?, htext, Option.map_some]
    exact ⟨_, hread, _, List.mem_singleton_self _⟩

/-! ### Where the two agree -/

section Agreement

variable {above below : List (List Char)} {m n : ℕ}

/-- Where both see a heading they see one of the same level. -/
theorem level_eq_of_records (hm : Records above line below m) (hn : StandsForHeading line n) :
    m = n := by
  obtain ⟨hone, -, rest, rfl⟩ := markedLevel?_eq_some_iff.mp (records_iff.mp hm)
  obtain ⟨-, hheading⟩ := standsForHeading_iff.mp hn
  obtain ⟨-, -, indent, b, text, hline, hindent, hb, -⟩ := heading?_trim_iff.mp hheading
  obtain rfl := indent_eq_nil hone hindent hline.symm
  exact (markers_eq (by decide) (ne_marker_of_isBlank hb) hline).1

/-- Only the checks take a line for a heading: there is no text, or it is a skip link. -/
theorem records_only_iff :
    ((∃ m, Records above line below m) ∧ ¬ ∃ n, StandsForHeading line n) ↔
      ∃ level rest, 1 ≤ level ∧ level ≤ 6 ∧ line = List.replicate level '#' ++ ' ' :: rest ∧
        (Text.allBlank rest = true ∨ isSkipLink line = true) := by
  simp only [records_iff, markedLevel?_eq_some_iff, standsForHeading_iff, heading?_trim_iff]
  constructor
  · rintro ⟨⟨m, hlow, hhigh, rest, rfl⟩, hnot⟩
    refine ⟨m, rest, hlow, hhigh, rfl, ?_⟩
    by_contra hheading
    simp only [not_or, Bool.not_eq_true] at hheading
    exact hnot ⟨m, hheading.2, hlow, hhigh, [], ' ', rest, rfl, rfl, by decide, hheading.1⟩
  · rintro ⟨m, rest, hlow, hhigh, rfl, hwhy⟩
    refine ⟨⟨m, hlow, hhigh, rest, rfl⟩, ?_⟩
    rintro ⟨n, hskip, -, -, indent, b, text, hline, hindent, hb, htext⟩
    obtain rfl := indent_eq_nil hlow hindent hline.symm
    obtain ⟨-, -, rfl⟩ := markers_eq (by decide) (ne_marker_of_isBlank hb) hline
    simp [htext, hskip] at hwhy

/-- Only the reading takes a line for a heading: it is indented, or another blank than a space
follows the markers. -/
theorem standsForHeading_only_iff :
    ((∃ n, StandsForHeading line n) ∧ ¬ ∃ m, Records above line below m) ↔
      ∃ level indent b rest, 1 ≤ level ∧ level ≤ 6 ∧
        line = indent ++ (List.replicate level '#' ++ b :: rest) ∧
        Text.allBlank indent = true ∧ Text.isBlank b = true ∧ Text.allBlank rest = false ∧
        isSkipLink line = false ∧ (indent ≠ [] ∨ b ≠ ' ') := by
  simp only [records_iff, markedLevel?_eq_some_iff, standsForHeading_iff, heading?_trim_iff]
  constructor
  · rintro ⟨⟨n, hskip, hlow, hhigh, indent, b, rest, rfl, hindent, hb, hrest⟩, hnot⟩
    refine ⟨n, indent, b, rest, hlow, hhigh, rfl, hindent, hb, hrest, hskip, ?_⟩
    by_contra hplain
    simp only [not_or, not_not] at hplain
    obtain ⟨rfl, rfl⟩ := hplain
    exact hnot ⟨n, hlow, hhigh, rest, rfl⟩
  · rintro ⟨n, indent, b, rest, hlow, hhigh, rfl, hindent, hb, hrest, hskip, hwhy⟩
    refine ⟨⟨n, hskip, hlow, hhigh, indent, b, rest, rfl, hindent, hb, hrest⟩, ?_⟩
    rintro ⟨m, hm, -, text, hline⟩
    obtain rfl := indent_eq_nil hm hindent hline
    obtain ⟨-, rfl, -⟩ := markers_eq (ne_marker_of_isBlank hb) (by decide) hline
    simp at hwhy

end Agreement

/-- **Where the checks and the reading of a page agree about headings.** They never find different
levels. Only the checks find a heading where nothing but blanks follows the markers and the space,
or where the line is a skip link; only the reading finds one where blanks stand in front of the
markers or another blank than a space behind them. -/
theorem headings_agree (above : List (List Char)) (line : List Char) (below : List (List Char)) :
    (∀ m n, Records above line below m → StandsForHeading line n → m = n) ∧
    (((∃ m, Records above line below m) ∧ ¬ ∃ n, StandsForHeading line n) ↔
      ∃ level rest, 1 ≤ level ∧ level ≤ 6 ∧ line = List.replicate level '#' ++ ' ' :: rest ∧
        (Text.allBlank rest = true ∨ isSkipLink line = true)) ∧
    (((∃ n, StandsForHeading line n) ∧ ¬ ∃ m, Records above line below m) ↔
      ∃ level indent b rest, 1 ≤ level ∧ level ≤ 6 ∧
        line = indent ++ (List.replicate level '#' ++ b :: rest) ∧
        Text.allBlank indent = true ∧ Text.isBlank b = true ∧ Text.allBlank rest = false ∧
        isSkipLink line = false ∧ (indent ≠ [] ∨ b ≠ ' ')) :=
  ⟨fun _ _ => level_eq_of_records, records_only_iff, standsForHeading_only_iff⟩

/-- A skip link counts for the checks only, and a tab behind the markers or a space in front of them
hides a heading from them. -/
example : headingMarks (Text.lines "# Skip to main\n#\tA\n # B\n# C".toList) =
      [⟨1, 1⟩, ⟨1, 4⟩] ∧
    (Document.ofText "# Skip to main\n#\tA\n # B\n# C").headings =
      [(1, "A"), (1, "B"), (1, "C")] := by
  decide

end Wireframe.Check
