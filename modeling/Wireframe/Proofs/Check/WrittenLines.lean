import Wireframe.Check
import Wireframe.Proofs.Check.HeadingLines
import Wireframe.Proofs.Line.Links

/-!
# Checks look at written lines only

A line of a page is *written* if it is not blank. Each check goes through the numbered lines in its
own way, but a blank line makes no difference to any of them, and a line number is only copied into
what is reported. So what is reported about a page is a function of its written lines and their
numbers, and follows the numbers if the lines are numbered differently (`ofLines_renumber`).

For the checks that keep a state this is shown for one step and then for the whole run: the state
after a line is renumbered with the line.
-/

namespace Wireframe

/-- A finding with other numbers for the lines. -/
def Finding.renumber (f : ℕ → ℕ) : Finding → Finding
  | firstHeadingNotLevel1 level line => firstHeadingNotLevel1 level (f line)
  | multipleLevel1Headings count => multipleLevel1Headings count
  | headingLevelSkip fromLevel toLevel line => headingLevelSkip fromLevel toLevel (f line)
  | multipleMetadataBlocks count => multipleMetadataBlocks count
  | duplicateLink text url lines => duplicateLink text url (lines.map f)

/-- A diagnostic with other numbers for the lines. -/
def Diagnostic.renumber (f : ℕ → ℕ) (diagnostic : Diagnostic) : Diagnostic :=
  ⟨diagnostic.finding.renumber f, diagnostic.lines.map f⟩

namespace Check

variable {f : ℕ → ℕ}

/-- The lines of a page that are not blank, with their numbers. -/
def written (lines : List (List Char)) : List (List Char × ℕ) :=
  (numbered lines).filter fun entry => !Text.allBlank entry.1

/-- What blank lines add nothing to can be collected from the written lines alone. -/
theorem flatMap_written {β : Type} {found : List Char × ℕ → List β}
    (hblank : ∀ line number, Text.allBlank line = true → found (line, number) = [])
    (lines : List (List Char)) :
    (written lines).flatMap found = (numbered lines).flatMap found := by
  rw [written]
  induction numbered lines with
  | nil => rfl
  | cons entry rest ih =>
    rw [List.filter_cons, List.flatMap_cons]
    cases hentry : Text.allBlank entry.1 with
    | true => simpa [hblank entry.1 entry.2 hentry] using ih
    | false => simpa using ih

/-- What blank lines do not contribute to can be picked from the written lines alone. -/
theorem filterMap_written {β : Type} {found? : List Char × ℕ → Option β}
    (hblank : ∀ line number, Text.allBlank line = true → found? (line, number) = none)
    (lines : List (List Char)) :
    (written lines).filterMap found? = (numbered lines).filterMap found? := by
  rw [List.filterMap_eq_flatMap_toList, flatMap_written, ← List.filterMap_eq_flatMap_toList]
  exact fun line number h => by rw [hblank line number h, Option.toList_none]

/-- A state that blank lines leave alone can be run over the written lines alone. -/
theorem foldl_written {σ : Type} {step : σ → List Char → ℕ → σ}
    (hblank : ∀ state line number, Text.allBlank line = true → step state line number = state)
    (start : σ) (lines : List (List Char)) :
    (written lines).foldl (fun state entry => step state entry.1 entry.2) start =
      (numbered lines).foldl (fun state entry => step state entry.1 entry.2) start := by
  rw [written, List.foldl_filter]
  congr 1
  funext state entry
  cases hentry : Text.allBlank entry.1 with
  | true => exact (hblank state entry.1 entry.2 hentry).symm
  | false => rfl

/-- A run whose steps follow the numbers: if the entries are renumbered, so is the last state. -/
theorem foldl_renumber {σ ι : Type} {step : σ → ι → ℕ → σ} {move : σ → σ}
    (hstep : ∀ state x number, step (move state) x (f number) = move (step state x number))
    (start : σ) (entries : List (ι × ℕ)) :
    (entries.map (Prod.map id f)).foldl (fun state entry => step state entry.1 entry.2)
        (move start) =
      move (entries.foldl (fun state entry => step state entry.1 entry.2) start) := by
  rw [List.foldl_map]
  exact List.foldl_hom move fun state entry => hstep state entry.1 entry.2

/-! ### Headings -/

/-- A heading with another line number. -/
def HeadingMark.renumber (f : ℕ → ℕ) (mark : HeadingMark) : HeadingMark :=
  ⟨mark.level, f mark.line⟩

/-- The heading that a numbered line is, if it is one. -/
def mark? (entry : List Char × ℕ) : Option HeadingMark :=
  (markedLevel? entry.1).map fun level => ⟨level, entry.2⟩

/-- A blank line is no heading. -/
theorem markedLevel?_of_allBlank {line : List Char} (h : Text.allBlank line = true) :
    markedLevel? line = none := by
  rw [Option.eq_none_iff_forall_ne_some]
  intro level hlevel
  obtain ⟨hone, -, rest, rfl⟩ := markedLevel?_eq_some_iff.mp hlevel
  have hmarker : '#' ∉ List.replicate level '#' ++ ' ' :: rest :=
    Text.not_mem_of_allBlank (by decide) h
  simp at hmarker
  omega

/-- The headings are found on the written lines. -/
theorem headingMarks_eq_written (lines : List (List Char)) :
    headingMarks lines = (written lines).filterMap mark? := by
  rw [filterMap_written]
  · rfl
  · intro line number hblank
    rw [mark?, markedLevel?_of_allBlank hblank, Option.map_none]

/-- Lines with other numbers have the same headings, on these numbers. -/
theorem filterMap_mark?_renumber (entries : List (List Char × ℕ)) :
    (entries.map (Prod.map id f)).filterMap mark? =
      (entries.filterMap mark?).map (HeadingMark.renumber f) := by
  rw [List.filterMap_map, List.map_filterMap]
  congr 1
  funext entry
  simp [mark?, HeadingMark.renumber, Function.comp_def]

/-- Whether a page begins at level 1 is reported with the number of the line. -/
theorem entryPoint_renumber (marks : List HeadingMark) :
    entryPoint (marks.map (HeadingMark.renumber f)) =
      (entryPoint marks).map (Diagnostic.renumber f) := by
  cases marks with
  | nil => rfl
  | cons first rest =>
    rw [List.map_cons, entryPoint, entryPoint, apply_ite (List.map _)]
    rfl

theorem level1Lines_renumber (marks : List HeadingMark) :
    level1Lines (marks.map (HeadingMark.renumber f)) = (level1Lines marks).map f := by
  rw [level1Lines, level1Lines, List.filter_map, List.map_map, List.map_map]
  rfl

theorem singleLevel1_renumber (marks : List HeadingMark) :
    singleLevel1 (marks.map (HeadingMark.renumber f)) =
      (singleLevel1 marks).map (Diagnostic.renumber f) := by
  rw [singleLevel1, singleLevel1, level1Lines_renumber, List.length_map, apply_ite (List.map _)]
  rfl

/-- A skipped level is reported with the number of its line: the numbers decide nothing. -/
theorem levelSkips_renumber : (marks : List HeadingMark) →
    levelSkips (marks.map (HeadingMark.renumber f)) =
      (levelSkips marks).map (Diagnostic.renumber f)
  | [] => rfl
  | [_] => rfl
  | previous :: next :: rest => by
    have hrest := levelSkips_renumber (next :: rest)
    rw [List.map_cons] at hrest
    rw [List.map_cons, List.map_cons, levelSkips, hrest, levelSkips, apply_ite (List.map _)]
    rfl

/-! ### The metadata block -/

namespace BlockCount

/-- A count with other line numbers. -/
def renumber (f : ℕ → ℕ) (count : BlockCount) : BlockCount :=
  { count with stray := count.stray.map f }

/-- The count runs over the lines together with their numbers. -/
theorem addAll_eq_foldl (count : BlockCount) (lines : List (List Char)) (number : ℕ) :
    count.addAll lines number =
      (lines.zipIdx number).foldl (fun count entry => count.add entry.1 entry.2) count := by
  induction lines generalizing count number with
  | nil => rfl
  | cons line rest ih => rw [addAll, ih, List.zipIdx_cons, List.foldl_cons]

/-- One line changes the count alike, whatever its number. -/
theorem add_renumber (count : BlockCount) (line : List Char) (number : ℕ) :
    (count.renumber f).add line (f number) = (count.add line number).renumber f := by
  cases hmetadata : isMetadataLine line with
  | true => cases hseen : count.contentSeen <;> simp [add, renumber, hmetadata, hseen]
  | false => cases hblank : Text.allBlank line <;> simp [add, renumber, hmetadata, hblank]

end BlockCount

/-- A blank line holds no metadata. -/
theorem isMetadataLine_of_allBlank {line : List Char} (h : Text.allBlank line = true) :
    isMetadataLine line = false := by
  have hopenings : ∀ opening ∈ blockOpenings, Text.allBlank opening.toList = false := by decide
  rw [isMetadataLine, List.any_eq_false]
  intro opening hmem hopening
  obtain ⟨rest, rfl⟩ := List.isPrefixOf_iff_prefix.mp hopening
  rw [Text.allBlank_append, hopenings opening hmem] at h
  exact Bool.noConfusion h.1

theorem BlockCount.add_of_allBlank (count : BlockCount) {line : List Char}
    (h : Text.allBlank line = true) (number : ℕ) : count.add line number = count := by
  simp [add, isMetadataLine_of_allBlank h, h]

/-- The blocks can be counted on the written lines. -/
theorem countBlocks_eq_written (lines : List (List Char)) :
    countBlocks lines =
      (written lines).foldl (fun count entry => count.add entry.1 entry.2) .start := by
  rw [countBlocks, BlockCount.addAll_eq_foldl, foldl_written]
  · rfl
  · exact fun count line number hblank => count.add_of_allBlank hblank number

/-- Pages with the same written lines have the same blocks, on the other numbers. -/
theorem countBlocks_renumber {lines others : List (List Char)}
    (h : written others = (written lines).map (Prod.map id f)) :
    countBlocks others = (countBlocks lines).renumber f := by
  rw [countBlocks_eq_written, h, countBlocks_eq_written]
  exact foldl_renumber BlockCount.add_renumber BlockCount.start (written lines)

theorem singleMetadataBlock_renumber {lines others : List (List Char)}
    (h : written others = (written lines).map (Prod.map id f)) :
    singleMetadataBlock others = (singleMetadataBlock lines).map (Diagnostic.renumber f) := by
  rw [singleMetadataBlock, singleMetadataBlock, countBlocks_renumber h, apply_ite (List.map _)]
  rfl

/-! ### Links -/

/-- A record with other line numbers. -/
def LinkRecord.renumber (f : ℕ → ℕ) (record : LinkRecord) : LinkRecord :=
  ⟨record.link, record.lines.map f⟩

/-- The links of a numbered line with its number. -/
def numberedUses (entry : List Char × ℕ) : List (LinkUse × ℕ) :=
  (linkUses entry.1).map (·, entry.2)

/-- The links of a page are collected line by line. -/
theorem linkUsesFrom_eq_flatMap (lines : List (List Char)) (number : ℕ) :
    linkUsesFrom lines number = (lines.zipIdx number).flatMap numberedUses := by
  induction lines generalizing number with
  | nil => rfl
  | cons line rest ih =>
    rw [linkUsesFrom, ih, List.zipIdx_cons, List.flatMap_cons]
    rfl

/-- A blank line holds no link. -/
theorem linkUses_of_allBlank {line : List Char} (h : Text.allBlank line = true) :
    linkUses line = [] := by
  have hlinks : Line.links line = [] := by
    refine (Line.recognisedBy_linkAt? line).allMatches_eq_nil_iff.mpr ?_
    rintro tail htail ⟨inside, rfl, -⟩
    have hbracket : '[' ∉ line := Text.not_mem_of_allBlank (by decide) h
    exact hbracket (htail.subset (List.mem_cons_self ..))
  rw [linkUses, hlinks, List.filterMap_nil]

/-- Goes through some links with the numbers of their lines. -/
def recordUses (uses : List (LinkUse × ℕ)) : List LinkRecord :=
  uses.foldl (fun records found => recordLink records found.1 found.2) []

/-- The links are recorded from the written lines. -/
theorem linkRecords_eq_written (lines : List (List Char)) :
    linkRecords lines = recordUses ((written lines).flatMap numberedUses) := by
  rw [flatMap_written, linkRecords, linkUsesFrom_eq_flatMap]
  · rfl
  · intro line number hblank
    rw [numberedUses, linkUses_of_allBlank hblank]
    rfl

/-- A line is noted once under its new number too, since different lines keep different numbers. -/
theorem noteLine_renumber (hf : f.Injective) (numbers : List ℕ) (number : ℕ) :
    noteLine (numbers.map f) (f number) = (noteLine numbers number).map f := by
  -- the number is repeated in one list exactly if it is in the other
  have hlast : (numbers.map f).getLast? = some (f number) ↔ numbers.getLast? = some number := by
    rw [List.getLast?_map, Option.map_eq_some_iff]
    simp [hf.eq_iff]
  rw [noteLine, noteLine, apply_ite (List.map f), List.map_append, List.map_singleton]
  simp only [hlast]

/-- A link is recorded under the new number of its line. -/
theorem recordLink_renumber (hf : f.Injective) (records : List LinkRecord) (link : LinkUse)
    (number : ℕ) : recordLink (records.map (LinkRecord.renumber f)) link (f number) =
      (recordLink records link number).map (LinkRecord.renumber f) := by
  induction records with
  | nil => rfl
  | cons record rest ih =>
    rw [List.map_cons, recordLink, recordLink, ih, apply_ite (List.map _)]
    -- the keys are the same, so the link goes into the record at the same place
    congr 1
    rw [List.map_cons, LinkRecord.renumber, noteLine_renumber hf]
    rfl

/-- Lines with other numbers have the same links, on these numbers. -/
theorem flatMap_numberedUses_renumber (entries : List (List Char × ℕ)) :
    (entries.map (Prod.map id f)).flatMap numberedUses =
      (entries.flatMap numberedUses).map (Prod.map id f) := by
  rw [List.flatMap_map, List.map_flatMap]
  congr 1
  funext entry
  rw [numberedUses, numberedUses, List.map_map]
  rfl

theorem linkRecords_renumber (hf : f.Injective) {lines others : List (List Char)}
    (h : written others = (written lines).map (Prod.map id f)) :
    linkRecords others = (linkRecords lines).map (LinkRecord.renumber f) := by
  rw [linkRecords_eq_written, h, flatMap_numberedUses_renumber, linkRecords_eq_written]
  exact foldl_renumber (recordLink_renumber hf) [] _

/-- Pages with the same written lines have the same report about links. -/
theorem duplicateLinks_renumber (hf : f.Injective) {lines others : List (List Char)}
    (h : written others = (written lines).map (Prod.map id f)) :
    duplicateLinks others = (duplicateLinks lines).map (Diagnostic.renumber f) := by
  rw [duplicateLinks, linkRecords_renumber hf h, duplicateLinks, List.filterMap_map,
    List.map_filterMap]
  congr 1
  funext record
  rw [Function.comp_apply, LinkRecord.diagnostic?, LinkRecord.diagnostic?, LinkRecord.renumber,
    List.length_map, apply_ite (Option.map _)]
  rfl

/-! ### All checks -/

/-- **What is reported about a page follows the numbers of its written lines.** -/
theorem ofLines_renumber (hf : f.Injective) {lines others : List (List Char)}
    (h : written others = (written lines).map (Prod.map id f)) :
    ofLines others = (ofLines lines).map (Diagnostic.renumber f) := by
  have hmarks : headingMarks others = (headingMarks lines).map (HeadingMark.renumber f) := by
    rw [headingMarks_eq_written, h, filterMap_mark?_renumber, headingMarks_eq_written]
  simp only [ofLines, hmarks, entryPoint_renumber, singleLevel1_renumber, levelSkips_renumber,
    singleMetadataBlock_renumber h, duplicateLinks_renumber hf h, List.map_append]

end Check

end Wireframe
