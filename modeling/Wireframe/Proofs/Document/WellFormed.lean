import Wireframe.Proofs.Check.HeadingLines
import Wireframe.Proofs.Document.FillIns
import Wireframe.Proofs.Line.Readings
import Wireframe.Proofs.Text.Blanks
import Wireframe.Proofs.Text.Lines

/-!
# What documents are made of

Every element of a document has the form that its kind asks for (`Element.WellFormed`), and every
text in it stands on one line of the page. This holds of all texts, and so of lines with lone
markers, of empty brackets and of blanks of any kind.

A rule is given a trimmed line, which has no blank at its end (`Text.Tight`). So something stands
behind the blank that a landmark, a bullet or a heading is opened with, and what stands there does
not end in a blank. That the words of a skip link do not occur in running text is due to the order
of the rules, and so this is the one case that asks for the rules before.
-/

namespace Wireframe

namespace Element

/-- The texts of an element itself, without those of what is in it. -/
def texts : Element → List String
  | heading _ content => [content]
  | button label => [label]
  | image description => [description]
  | input label => [label]
  | link content url => content :: url.toList
  | text content => [content]
  | listItem content => [content]
  | divider => []
  | landmark name _ => [name]
  | skipLink content => [content]

/-- Whether some characters are what stands behind a marker: not all blank, and no blank at the
end. -/
def FollowsMarker (cs : List Char) : Prop :=
  (∃ c ∈ cs, Text.isBlank c = false) ∧ ∀ c ∈ cs.getLast?, Text.isBlank c = false

/-- Whether the words by which a skip link is known occur in a text, in whatever case. -/
def NamesSkipLink (content : String) : Prop :=
  Line.skipWords <:+: Text.lowerCase content.toList

/-- Whether an element has the form that its kind asks for. What is in a landmark is no landmark. -/
def WellFormed : Element → Prop
  | heading level content => 1 ≤ level ∧ level ≤ 6 ∧ Text.Tight content.toList
  | button label => label ≠ ""
  | image description => description ≠ ""
  | input label => Text.Tight label.toList ∧ ':' ∉ label.toList
  | link content url =>
    (content ≠ "" ∧ ']' ∉ content.toList) ∧ ∀ target ∈ url, target ≠ "" ∧ ')' ∉ target.toList
  | text content => Text.Tight content.toList ∧ ¬ NamesSkipLink content
  | listItem content => FollowsMarker content.toList
  | divider => True
  | landmark name children =>
    FollowsMarker name.toList ∧ ∀ child ∈ children, child.isLandmark = false
  | skipLink content => Text.Tight content.toList ∧ NamesSkipLink content

/-- Whether an element is well formed and its texts are parts of a line. -/
def StandsOn (line : List Char) (element : Element) : Prop :=
  element.WellFormed ∧ ∀ text ∈ element.texts, text.toList <:+: line

end Element

namespace Line

open Element

variable {line content : List Char} {level : ℕ} {element : Element}

/-! ### What the rules take from a tight line -/

theorem suffix_of_landmark? (h : landmark? line = some content) : ' ' :: content <:+ line := by
  rw [landmark?_eq_some_iff.mp h]
  exact ⟨['|', '|'], rfl⟩

/-- The text of an item ends its line, behind a blank. -/
theorem suffix_of_listItem? (h : listItem? line = some content) : ' ' :: content <:+ line := by
  rcases listItem?_eq_some_iff.mp h with rfl | rfl
  · exact ⟨['*'], rfl⟩
  · exact ⟨['-'], rfl⟩

/-- What stands behind a blank at the end of a trimmed line is trimmed and not empty. -/
theorem followsMarker_of_suffix (h : Text.Tight line) {b : Char} (hb : Text.isBlank b = true)
    (hsuffix : b :: content <:+ line) : FollowsMarker content := by
  obtain ⟨before, rfl⟩ := hsuffix
  have hne := h.ne_nil_of_blank hb
  have hlast : ∀ c ∈ content.getLast?, Text.isBlank c = false := fun c hc => by
    refine h.last c (List.mem_getLast?_append_of_mem_getLast? ?_)
    rw [List.getLast?_cons, Option.mem_def.mp hc]
    rfl
  have hnot := hlast _ (List.getLast_mem_getLast? hne)
  exact ⟨⟨content.getLast hne, List.getLast_mem hne, hnot⟩, hlast⟩

/-- The text of a heading is all that stands behind the markers and the blanks. -/
theorem suffix_of_heading? (hline : Text.Tight line) (hnewline : '\n' ∉ line)
    (h : heading? line = some (level, content)) :
    1 ≤ level ∧ level ≤ 6 ∧ content <:+ line ∧ Text.Tight content := by
  obtain ⟨hlow, hhigh, b, rest, rfl, hb⟩ := Check.exists_of_heading? h
  obtain ⟨⟨c, hmem, hc⟩, -⟩ := followsMarker_of_suffix hline hb (List.suffix_append _ _)
  have hrest : Text.allBlank rest = false := List.all_eq_false.mpr ⟨c, hmem, by simp [hc]⟩
  rcases Text.span_cases Text.isBlank rest with hall | ⟨run, c, text, rfl, hrun, hc⟩
  · rw [Text.allBlank, List.all_eq_true.mpr hall] at hrest
    exact Bool.noConfusion hrest
  · have hsuffix : c :: text <:+ List.replicate level '#' ++ b :: (run ++ c :: text) :=
      ⟨List.replicate level '#' ++ b :: run, by simp⟩
    have hall : (c :: text).takeWhile (· != '\n') = c :: text :=
      List.takeWhile_eq_self_iff.mpr fun d hd =>
        bne_iff_ne.mpr (ne_of_mem_of_not_mem (hsuffix.subset hd) hnewline)
    rw [Check.heading?_written hlow hhigh hb hrun hc, hall] at h
    obtain ⟨-, rfl⟩ := Prod.mk.inj (Option.some_inj.mp h)
    exact ⟨hlow, hhigh, hsuffix,
      hline.of_suffix hsuffix (List.cons_ne_nil _ _) fun d hd => by simp_all⟩

/-- The label of a form field is what stands in front of the first colon, without blanks. -/
theorem infix_of_input? (hline : Text.Tight line) (h : input? line = some content) :
    content <:+: line ∧ Text.Tight content ∧ ':' ∉ content := by
  obtain ⟨label, blanks, marks, rest, rfl, hne, hcolon, rfl⟩ := exists_of_input? h
  have hwithin := Text.trim_infix label
  refine ⟨hwithin.trans (List.prefix_append _ _).isInfix, Text.tight_trim fun hnil => ?_,
    fun hmem => hcolon (hwithin.subset hmem)⟩
  -- a label of blanks would be at the beginning of the line
  obtain ⟨c, cs, rfl⟩ := List.exists_cons_of_ne_nil hne
  have hblank := List.all_eq_true.mp (Text.trim_eq_nil_iff.mp hnil) c (List.mem_cons_self ..)
  rw [hline.head c rfl] at hblank
  exact Bool.noConfusion hblank

/-! ### The elements of a line -/

theorem namesSkipLink_iff {content : String} :
    NamesSkipLink content ↔ isSkipLink content.toList = true := by
  rw [NamesSkipLink, isSkipLink, Text.occurs_eq_true_iff]
  exact exists_congr fun before => exists_congr fun after => eq_comm

/-- A link stands on the line on which it is found. -/
theorem standsOn_link {span : LinkSpan} (hmem : span ∈ links line) :
    span.element.StandsOn line := by
  obtain ⟨hwritten, after, hfits⟩ := infix_of_mem_links hmem
  obtain ⟨text, url⟩ := span
  refine ⟨⟨⟨by simpa using hfits.text_ne_nil, by simpa using hfits.text_ends⟩, ?_⟩, ?_⟩
  · intro target htarget
    obtain ⟨cs, rfl, rfl⟩ := Option.map_eq_some_iff.mp htarget
    exact ⟨by simpa using hfits.url_ne_nil cs rfl, by simpa using hfits.url_ends cs rfl⟩
  · intro part hpart
    refine List.IsInfix.trans ?_ hwritten
    rcases List.mem_cons.mp hpart with rfl | hpart
    · exact ⟨['['], ']' :: writtenUrl url, by simp [LinkSpan.written]⟩
    · obtain ⟨cs, rfl, rfl⟩ := Option.map_eq_some_iff.mp (Option.mem_toList.mp hpart)
      exact ⟨'[' :: (text ++ [']', '(']), [')'], by simp [LinkSpan.written, writtenUrl]⟩

/-- What a rule makes of a tight line that no rule before it applies to is well formed, and it is
made of parts of the line. -/
theorem Rule.standsOn_of_mem {rule : Rule} {meaning : Meaning} (hline : Text.Tight line)
    (hnewline : '\n' ∉ line) (hbefore : ∀ earlier ∈ rule.before, earlier.meaning? line = none)
    (h : rule.meaning? line = some meaning) (hmem : element ∈ meaning.content) :
    element.StandsOn line := by
  have htaken := Rule.takenFrom_of_mem h hmem
  cases element with
  | heading level content =>
    obtain ⟨hlow, hhigh, hsuffix, htight⟩ := suffix_of_heading? hline hnewline htaken
    exact ⟨⟨hlow, hhigh, htight⟩, by simpa [texts] using hsuffix.isInfix⟩
  | button label =>
    obtain ⟨hne, hwithin⟩ := infix_of_mem_buttons hnewline htaken
    exact ⟨by simpa [WellFormed] using hne,
      by simpa [texts] using (List.infix_append ..).trans hwithin⟩
  | image description =>
    obtain ⟨hne, hwithin⟩ := infix_of_mem_images hnewline htaken
    exact ⟨by simpa [WellFormed] using hne,
      by simpa [texts] using (List.infix_append ..).trans hwithin⟩
  | input label =>
    obtain ⟨hwithin, htight, hcolon⟩ := infix_of_input? hline htaken
    exact ⟨⟨htight, hcolon⟩, by simpa [texts] using hwithin⟩
  | link content url =>
    obtain ⟨span, hspan, heq⟩ := htaken
    exact heq ▸ standsOn_link hspan
  | text content =>
    obtain rfl : rule = .text := Rule.eq_of_mem h hmem
    -- otherwise the line would have been read as a skip link
    have hskip : isSkipLink line ≠ true := by
      simpa [Rule.meaning?] using hbefore .skipLink (by decide)
    obtain rfl : content.toList = line := htaken
    exact ⟨⟨hline, mt namesSkipLink_iff.mp hskip⟩, by simp [texts]⟩
  | listItem content =>
    have hsuffix := suffix_of_listItem? htaken
    exact ⟨followsMarker_of_suffix hline (by decide) hsuffix,
      by simpa [texts] using ((List.suffix_cons _ _).trans hsuffix).isInfix⟩
  | divider => exact ⟨trivial, by simp [texts]⟩
  | landmark name children => exact absurd htaken id
  | skipLink content =>
    obtain ⟨rfl, hskip⟩ := htaken
    exact ⟨⟨hline, namesSkipLink_iff.mpr hskip⟩, by simp [texts]⟩

/-- A line that is read stands for well-formed elements, which are made of parts of it. -/
theorem standsOn_of_read? {rule : Rule} {meaning : Meaning} (hnewline : '\n' ∉ line)
    (h : read? line = some (rule, meaning)) (hmem : element ∈ meaning.content) :
    element.StandsOn line := by
  obtain ⟨hne, hbefore, hmeaning⟩ := read?_eq_some_iff.mp h
  have hwithin := Text.trim_infix line
  have hstands := Rule.standsOn_of_mem (Text.tight_trim hne)
    (fun hmem => hnewline (hwithin.subset hmem)) hbefore hmeaning hmem
  exact ⟨hstands.1, fun text htext => (hstands.2 text htext).trans hwithin⟩

/-- Only the rule for landmarks opens one. -/
theorem Rule.eq_landmark_of_landmark {rule : Rule} {name : String}
    (h : rule.meaning? line = some (.landmark name)) : rule = .landmark := by
  cases rule with
  | landmark => rfl
  | buttons | links => simp [meaning?, someElements_eq_some_iff] at h
  | _ => simp [meaning?] at h

/-- The name of a landmark that a line opens is a part of the line. -/
theorem followsMarker_of_read? {rule : Rule} {name : String}
    (h : read? line = some (rule, .landmark name)) :
    FollowsMarker name.toList ∧ name.toList <:+: line := by
  obtain ⟨hne, -, hmeaning⟩ := read?_eq_some_iff.mp h
  obtain rfl := Rule.eq_landmark_of_landmark hmeaning
  obtain ⟨content, hfound, heq⟩ := Option.map_eq_some_iff.mp hmeaning
  obtain rfl := Meaning.landmark.inj heq
  have hsuffix := suffix_of_landmark? hfound
  rw [String.toList_ofList]
  exact ⟨followsMarker_of_suffix (Text.tight_trim hne) (by decide) hsuffix,
    ((List.suffix_cons _ _).trans hsuffix).isInfix.trans (Text.trim_infix line)⟩

end Line

/-! ### The elements of a document -/

namespace Document

open Element Line

/-- A landmark that a document holds is one of its elements, because there is none in another. -/
theorem mem_of_holds_landmark {text name : String} {children : List Element}
    (h : (ofText text).Holds (.landmark name children)) :
    .landmark name children ∈ (ofText text).elements := by
  obtain ⟨outer, houter, hwithin⟩ := h
  cases hwithin with
  | self => exact houter
  | child hmem hinner =>
    have hflat := (reads_ofText text).2.flat _ houter _ hmem
    cases hinner <;> exact Bool.noConfusion hflat

/-- The landmarks of a document are opened by its lines. -/
theorem exists_line_of_mem_landmark {text name : String} {children : List Element}
    (h : .landmark name children ∈ (ofText text).elements) :
    ∃ line ∈ Text.lines text.toList, ∃ rule, read? line = some (rule, .landmark name) := by
  have hname : name ∈ (ofText text).landmarkNames := List.mem_filterMap.mpr ⟨_, h, rfl⟩
  rw [(reads_ofText text).2.landmarkNames] at hname
  obtain ⟨meaning, hmeaning, hopens⟩ := List.mem_filterMap.mp hname
  obtain ⟨line, hline, hfound⟩ := List.mem_filterMap.mp hmeaning
  obtain ⟨⟨rule, meaning⟩, hread, rfl⟩ := Option.map_eq_some_iff.mp hfound
  cases meaning with
  | landmark other =>
    obtain rfl := Option.some_inj.mp hopens
    exact ⟨line, hline, rule, hread⟩
  | entry key value => exact absurd hopens.symm (Option.some_ne_none _)
  | elements es => exact absurd hopens.symm (Option.some_ne_none _)

/-- Whether all that a document holds is well formed and made of parts of the given lines: each
element has its texts from one of them, and no text holds a line feed. -/
structure WellFormed (document : Document) (lines : List (List Char)) : Prop where
  element : ∀ element, document.Holds element → element.WellFormed
  written : ∀ element, document.Holds element → ∃ line ∈ lines, ∀ content ∈ element.texts,
    '\n' ∉ content.toList ∧ content.toList <:+: line

/-- A document is well formed if each of its elements stands on a line of the page. -/
theorem WellFormed.of_standsOn {document : Document} {lines : List (List Char)}
    (hlines : ∀ line ∈ lines, '\n' ∉ line)
    (h : ∀ element, document.Holds element → ∃ line ∈ lines, element.StandsOn line) :
    document.WellFormed lines where
  element element helement := by
    obtain ⟨line, -, hstands⟩ := h element helement
    exact hstands.1
  written element helement := by
    obtain ⟨line, hline, hstands⟩ := h element helement
    refine ⟨line, hline, fun content hcontent => ⟨fun hmem => ?_, hstands.2 content hcontent⟩⟩
    exact hlines line hline ((hstands.2 content hcontent).subset hmem)

/-- **Every document that is read is well formed**, whatever the text: its elements have the form
that their kinds ask for, and their texts are parts of its lines. -/
theorem wellFormed_ofText (text : String) :
    (ofText text).WellFormed (Text.lines text.toList) := by
  refine .of_standsOn (fun _ => Text.newline_not_mem_of_mem_lines) fun element helement => ?_
  cases hkind : element.isLandmark with
  | false =>
    obtain ⟨line, hline, found, hread, hmem⟩ := (holds_ofText hkind text).mp helement
    exact ⟨line, hline, standsOn_of_read? (Text.newline_not_mem_of_mem_lines hline) hread hmem⟩
  | true =>
    cases element with
    | landmark name children =>
      have hmem := mem_of_holds_landmark helement
      obtain ⟨line, hline, rule, hread⟩ := exists_line_of_mem_landmark hmem
      obtain ⟨hname, hwithin⟩ := followsMarker_of_read? hread
      have hchildren := (reads_ofText text).2.flat _ hmem
      exact ⟨line, hline, ⟨hname, hchildren⟩, by simpa [texts] using hwithin⟩
    | _ => exact Bool.noConfusion hkind

/-- Markers with nothing but blanks behind them are text, and blanks of any kind end a heading. -/
example : (ofText "# \n||\t\n* \r\n#\u3000A\u00a0\n[\u00a0]").elements =
    [.text "#", .text "||", .text "*", .heading 1 "A", .link "\u00a0" none] := by
  rfl

end Document

end Wireframe
