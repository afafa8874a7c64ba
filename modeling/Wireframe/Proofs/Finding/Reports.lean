import Wireframe.Proofs.Check.LinkReports
import Wireframe.Proofs.Check.Rules
import Wireframe.Proofs.Finding.Data
import Wireframe.Proofs.Line.Readings
import Wireframe.Proofs.Store.Pages
import Wireframe.Proofs.Text.Blanks

/-!
# What is printed about a page

The report on a page is printed in two forms, and nothing of it is lost in either
(`Command.reportsFindings`). As JSON it is read back as the list of the diagnostics, entry by entry.
As sentences it has one line for each diagnostic: the texts and destinations of links come from
lines of the page, so none of them holds a line feed (`Check.onOneLine_of_mem_check`), and no
sentence ends in a carriage return that would be taken for part of the line end. To be strict about
findings changes nothing but how the command ends.
-/

namespace Wireframe

/-! ### Sentences -/

namespace Finding

/-- Whether the texts in a finding, if there are any, are without line feeds. -/
def OnOneLine (finding : Finding) : Prop := ∀ text url lines,
  finding = .duplicateLink text url lines →
    '\n' ∉ text.toList ∧ ∀ destination ∈ url, '\n' ∉ destination.toList

variable {c : Char}

theorem not_mem_append {part rest : String} (hpart : c ∉ part.toList) (hrest : c ∉ rest.toList) :
    c ∉ (part ++ rest).toList := by
  rw [String.toList_append, List.mem_append, not_or]
  exact ⟨hpart, hrest⟩

theorem not_mem_toString (hdigit : c.isDigit = false) (n : ℕ) : c ∉ (toString n).toList := by
  rw [show (toString n).toList = Numeral.digits n from Nat.toList_repr]
  exact fun hmem => absurd (Numeral.isDigit_of_mem_digits hmem) (by simp [hdigit])

/-- Line numbers are listed with digits and commas. -/
theorem not_mem_listed (hdigit : c.isDigit = false) (hsep : c ∉ ", ".toList) (lines : List ℕ) :
    c ∉ (listed lines).toList := by
  rw [listed, String.toList_intercalate, List.map_map]
  induction lines with
  | nil => exact List.not_mem_nil
  | cons n lines ih =>
    cases lines with
    | nil => simpa using not_mem_toString hdigit n
    | cons next lines =>
      rw [List.map_cons, List.map_cons, List.intercalate_cons_cons, List.mem_append,
        List.mem_append, not_or, not_or]
      exact ⟨⟨not_mem_toString hdigit n, hsep⟩, ih⟩

/-- A destination on one line stays on it. -/
theorem newline_not_mem_arrow {url : Option String} (h : ∀ destination ∈ url,
    '\n' ∉ destination.toList) : '\n' ∉ (arrow url).toList := by
  cases url with
  | none => exact List.not_mem_nil
  | some url => exact not_mem_append (by decide) (h url rfl)

/-- The message of a finding on one line has no line end. -/
theorem newline_not_mem_message {finding : Finding} (h : finding.OnOneLine) :
    '\n' ∉ finding.message.toList := by
  have hdigits := not_mem_toString (c := '\n') (by decide)
  cases finding with
  | firstHeadingNotLevel1 level line =>
    refine not_mem_append (not_mem_append (not_mem_append (not_mem_append ?_ (hdigits level)) ?_)
      (hdigits line)) ?_ <;> decide
  | multipleLevel1Headings count | multipleMetadataBlocks count =>
    refine not_mem_append (not_mem_append ?_ (hdigits count)) ?_ <;> decide
  | headingLevelSkip fromLevel toLevel line =>
    refine not_mem_append (not_mem_append (not_mem_append (not_mem_append
      (not_mem_append ?_ (hdigits fromLevel)) ?_) (hdigits toLevel)) ?_) (hdigits line) <;> decide
  | duplicateLink text url lines =>
    obtain ⟨htext, hurl⟩ := h text url lines rfl
    have hlisted := not_mem_listed (c := '\n') (by decide) (by decide) lines
    refine not_mem_append (not_mem_append (not_mem_append (not_mem_append
      (not_mem_append ?_ htext) ?_) (newline_not_mem_arrow hurl)) ?_) hlisted <;> decide

/-- A sentence ends in words, digits or a bracket, whatever the texts in it are. -/
theorem exists_message_eq (finding : Finding) : ∃ opening ending,
    finding.message = opening ++ ending ∧ ending.toList ≠ [] ∧ '\r' ∉ ending.toList := by
  cases finding with
  | headingLevelSkip fromLevel toLevel line =>
    refine ⟨_, toString line, rfl, ?_, not_mem_toString (by decide) line⟩
    rw [show (toString line).toList = Numeral.digits line from Nat.toList_repr]
    exact Numeral.digits_ne_nil line
  | duplicateLink text url lines =>
    refine ⟨_, " appears on lines " ++ listed lines, String.append_assoc, ?_, ?_⟩
    · rw [String.toList_append]
      exact List.append_ne_nil_of_left_ne_nil (by decide) _
    · rw [String.toList_append, List.mem_append, not_or]
      exact ⟨by decide, not_mem_listed (by decide) (by decide) lines⟩
  | _ => exact ⟨_, ")", rfl, by decide, by decide⟩

/-- No message ends in a return. -/
theorem dropReturn_message (finding : Finding) (row : List Char) :
    Text.dropReturn (row ++ finding.message.toList) = row ++ finding.message.toList := by
  obtain ⟨opening, ending, heq, hne, hreturn⟩ := exists_message_eq finding
  rw [heq, String.toList_append, ← List.append_assoc,
    Text.dropReturn_append_of_ne_nil hne hreturn]

end Finding

/-! ### Findings of a page -/

namespace Check

variable {line : List Char} {lines : List (List Char)} {text : String} {d : Diagnostic}

/-- The parts of a link stand in its line. -/
theorem infix_of_mem_linkUses {link : LinkUse} (h : link ∈ linkUses line) :
    link.text <:+: line ∧ ∀ url ∈ link.url, url <:+: line := by
  obtain ⟨span, hspan, hlink⟩ := List.mem_filterMap.mp h
  obtain ⟨-, hlink⟩ := Option.ite_none_left_eq_some.mp hlink
  obtain rfl := Option.some_inj.mp hlink
  have hwritten := (Line.infix_of_mem_links hspan).1
  have htext : span.text <:+: span.written := ⟨['['], _, by simp [Line.LinkSpan.written]; rfl⟩
  refine ⟨((Text.trim_infix _).trans htext).trans hwritten, fun url hurl => ?_⟩
  obtain ⟨trimmed, -⟩ := Option.filter_eq_some_iff.mp hurl
  obtain ⟨destination, hdestination, rfl⟩ := Option.map_eq_some_iff.mp trimmed
  have hurl : destination <:+: span.written :=
    ⟨'[' :: (span.text ++ [']', '(']), [')'], by
      simp [Line.LinkSpan.written, Line.writtenUrl, hdestination]⟩
  exact ((Text.trim_infix _).trans hurl).trans hwritten

/-- A repeated link is reported with texts from one line. -/
theorem onOneLine_of_mem_duplicateLinks (hlines : ∀ line ∈ lines, '\n' ∉ line)
    (h : d ∈ duplicateLinks lines) : d.finding.OnOneLine := by
  rw [duplicateLinks_eq_firstLinks] at h
  obtain ⟨link, hlink, hd⟩ := List.mem_filterMap.mp h
  obtain ⟨-, hd⟩ := Option.ite_none_right_eq_some.mp hd
  obtain rfl := Option.some_inj.mp hd
  have hmem := List.mem_of_find?_eq_some (mem_firstLinks.mp hlink)
  rw [pageLinks_eq] at hmem
  obtain ⟨line, hline, huse⟩ := List.mem_flatMap.mp hmem
  obtain ⟨htext, hurl⟩ := infix_of_mem_linkUses huse
  intro text url numbers heq
  obtain ⟨rfl, rfl, -⟩ := Finding.duplicateLink.inj heq
  rw [String.toList_ofList]
  refine ⟨fun hnewline => hlines line hline (htext.subset hnewline), fun destination hmem => ?_⟩
  obtain ⟨cs, hcs, rfl⟩ := Option.map_eq_some_iff.mp hmem
  rw [String.toList_ofList]
  exact fun hnewline => hlines line hline ((hurl cs hcs).subset hnewline)

/-- What is found on a page is told in one line. -/
theorem onOneLine_of_mem_check (h : d ∈ check text) : d.finding.OnOneLine := by
  intro linkText url numbers heq
  have hrule : d.rule = "duplicate_link" := by rw [Diagnostic.rule, heq]; rfl
  have hmem : d ∈ (ofLines (Text.lines text.toList)).filter (·.rule = "duplicate_link") :=
    List.mem_filter.mpr ⟨h, decide_eq_true hrule⟩
  rw [filter_ofLines _ duplicateLinks (by simp [checks])] at hmem
  exact onOneLine_of_mem_duplicateLinks (fun _ => Text.newline_not_mem_of_mem_lines) hmem _ _ _ heq

end Check

/-! ### The report as sentences -/

namespace Listing

open Text (lines)

/-- What stands behind the findings: how many there are. -/
def summary (input : Path) (diagnostics : List Diagnostic) : String :=
  line (issueCount diagnostics.length ++ " found in " ++ input.text)

/-- The report lists the messages line by line, then a summary. -/
theorem reportText_eq (input : Path) {diagnostics : List Diagnostic} (h : diagnostics ≠ []) :
    (reportText input diagnostics).toList =
      (String.join (diagnostics.map fun d => "⚠ " ++ d.message ++ "\n")).toList ++
        '\n' :: (summary input diagnostics).toList := by
  rw [reportText, Text.wholeLines, List.map_map]
  · simp [line, summary, Function.comp_def]
  · exact h

/-- One line for each finding, an empty one, and then how many there are. -/
theorem lines_reportText (input : Path) {text : String} (h : check text ≠ []) :
    lines (reportText input (check text)).toList =
      (check text).map (fun d => ("⚠ " ++ d.message).toList) ++
        [] :: lines (summary input (check text)).toList := by
  have hprinted : ∀ d ∈ check text, ("⚠ " ++ d.message ++ "\n").toList =
      ("⚠ " ++ d.message).toList ++ ['\n'] ∧ '\n' ∉ ("⚠ " ++ d.message).toList := by
    intro d hd
    refine ⟨String.toList_append, ?_⟩
    rw [String.toList_append, List.mem_append, not_or]
    exact ⟨by decide, Finding.newline_not_mem_message (Check.onOneLine_of_mem_check hd)⟩
  have hsentences : (check text).map (fun d => Text.dropReturn ("⚠ " ++ d.message).toList) =
      (check text).map fun d => ("⚠ " ++ d.message).toList := by
    refine List.map_congr_left fun d _ => ?_
    rw [String.toList_append, Diagnostic.message, Finding.dropReturn_message]
  rw [reportText_eq input h, Text.lines_join_append hprinted, hsentences,
    ← List.nil_append ('\n' :: _), Text.lines_append_rows,
    show (Text.rows []).map Text.dropReturn = [[]] from rfl, List.singleton_append]

end Listing

/-! ### The command -/

namespace Command

open FileSystem (bind_apply readText_apply)

variable {fs : FileSystem} {input : Path} {text : String}

/-- To validate a page is to report what the checks find, and to change nothing. -/
theorem perform_validate (today : Naming.Day) (hread : fs.readBytes input = .ok text.toUTF8)
    (format : ReportFormat) (strict : Bool) :
    perform today fs (.validate input format strict) =
      (reportOutcome input format strict (check text), fs) := by
  rw [perform, run, runValidate, withPage]
  simp only [bind_apply, readText_apply, hread, Except.bind, Disk.textOfBytes_toUTF8]
  rfl

/-- What comes of checking a page. -/
def validated (today : Naming.Day) (fs : FileSystem) (input : Path) (format : ReportFormat)
    (strict : Bool) : Outcome := (perform today fs (.validate input format strict)).1

/-- Whether the report on a page says what was found, in both forms, and whether it is strict
matters for nothing but how the command ends. -/
structure ReportsFindings (today : Naming.Day) (fs : FileSystem) (input : Path) (text : String) :
    Prop where
  /-- The JSON has an entry for each diagnostic, in order. -/
  entries : ∀ strict, ∃ entries,
    Json.read? (validated today fs input .json strict).printed = some (.list entries) ∧
      List.Forall₂ Diagnostic.IsEntry (check text) entries
  /-- The JSON is read back as the list of the diagnostics. -/
  decoded : ∀ strict,
    (Json.read? (validated today fs input .json strict).printed).bind
      (Data.listOf Diagnostic.ofData?) = some (check text)
  /-- There is one line for each diagnostic, in order, and behind them an empty one and the
  summary. -/
  lines : ∀ strict, check text ≠ [] →
    Text.lines (validated today fs input .text strict).printed.toList =
      (check text).map (fun d => ("⚠ " ++ d.message).toList) ++
        [] :: Text.lines (Listing.summary input (check text)).toList
  /-- The same is printed whether the command is strict or not. -/
  printed : ∀ format, (validated today fs input format true).printed =
    (validated today fs input format false).printed
  /-- The command fails exactly if it is strict and something was found. -/
  exitCode : ∀ format strict, (validated today fs input format strict).exitCode =
    if strict = true ∧ check text ≠ [] then 1 else 0

theorem exitCode_reportOutcome (format : ReportFormat) (strict : Bool)
    (diagnostics : List Diagnostic) : (reportOutcome input format strict diagnostics).exitCode =
      if strict = true ∧ diagnostics ≠ [] then 1 else 0 := by
  cases strict <;> cases diagnostics <;> rfl

/-- **The report on a page says what was found**, in both of its forms, whatever stands on the
page. -/
theorem reportsFindings (today : Naming.Day) (hread : fs.readBytes input = .ok text.toUTF8) :
    ReportsFindings today fs input text := by
  have hvalidated : ∀ format strict, validated today fs input format strict =
      reportOutcome input format strict (check text) := fun format strict => by
    rw [validated, perform_validate today hread]
  have hjson : ∀ strict, Json.read? (validated today fs input .json strict).printed =
      some (Diagnostic.reportData (check text)) := fun strict => by
    rw [hvalidated, reportOutcome, Listing.report, Listing.reportJson, Listing.line,
      Diagnostic.read?_pretty]
  refine ⟨fun strict => ⟨_, hjson strict, ?_⟩, fun strict => ?_, fun strict hne => ?_,
    fun format => ?_, fun format strict => ?_⟩
  · rw [List.forall₂_map_right_iff, List.forall₂_same]
    exact fun d _ => d.isEntry_toData
  · rw [hjson, Option.bind_some, Diagnostic.listOf_reportData]
  · rw [hvalidated, reportOutcome, Listing.report, Listing.lines_reportText input hne]
  · rw [hvalidated, hvalidated]
    rfl
  · rw [hvalidated, exitCode_reportOutcome]

open Batch (onePage)

/-- A page with a link on two lines, without a destination, in whose text there are quotes, a
backslash and a bell. -/
def quotingPage : String := "# A\n[say \"é\\\x07\"]\n[say \"é\\\x07\"]"

/-- A page whose finding has a quote and a control character in it is reported as any other. -/
theorem reportsFindings_quotingPage :
    (onePage "page.txt" quotingPage).readBytes ⟨"page.txt"⟩ = .ok quotingPage.toUTF8 ∧
    check quotingPage = [⟨.duplicateLink "say \"é\\\x07\"" none [2, 3], [2, 3]⟩] ∧
    ReportsFindings ⟨2024, 3, 7⟩ (onePage "page.txt" quotingPage) ⟨"page.txt"⟩ quotingPage := by
  have hread := Batch.readBytes_onePage (by decide : Path.IsName "page.txt") quotingPage
  exact ⟨hread, by decide, reportsFindings ⟨2024, 3, 7⟩ hread⟩

end Command

end Wireframe
