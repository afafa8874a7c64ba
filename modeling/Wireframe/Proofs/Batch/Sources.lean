import Wireframe.Proofs.Batch.Outputs

/-!
# Batches and the pages they read

A batch writes drawings and makes directories. The drawings of the pages below a directory go to
names with an extension that pages do not have, so whatever comes of a batch, these pages are as
they were. A single page may have any name, though, also that of its own drawing, and nothing keeps
a batch from putting the drawing in place of the page then (`Batch.pages_kept_iff`).
-/

namespace Wireframe.Batch

variable {fs : FileSystem} {root : Path} {outDir : Option Path} {inputs : List Path}
  {theme : Theme Float}

/-- A batch of pages is drawn, each to its own file. -/
def drawAll (theme : Theme Float) (fs : FileSystem) (inputs : List Path) (root : Path)
    (outDir : Option Path) : Except BatchError (List Rendered) × FileSystem :=
  renderAll (m := StateM FileSystem) theme inputs root outDir fs

theorem drawAll_eq (theme : Theme Float) (fs : FileSystem) (inputs : List Path) (root : Path)
    (outDir : Option Path) : drawAll theme fs inputs root outDir =
      match duplicate? [] (jobs inputs root outDir) with
      | some job => (.error (.duplicateOutput job.output job.input), fs)
      | none => run theme fs (jobs inputs root outDir) := by
  rw [drawAll, renderAll]
  cases duplicate? [] (jobs inputs root outDir) <;> rfl

/-- Whether a single page is one whose drawing goes where the page itself is, and can go there. -/
structure Overwrites (theme : Theme Float) (fs : FileSystem) (root : Path)
    (outDir : Option Path) : Prop where
  same : fs.place (outputPath root root outDir) = fs.place root
  clean : (outputPath root root outDir).Clean
  clear : fs.Clear (fs.wayTo (outputPath root root outDir))
  differs : ∃ text, fs.readBytes root = .ok text.toUTF8 ∧ Svg.ofText theme text ≠ text

/-! ### Pages below a directory -/

/-- Drawing changes no file but the outputs. -/
theorem drawAll_keeps (theme : Theme Float) (hfs : fs.WellFormed)
    (hends : ∀ input ∈ inputs, ∃ ps name, (outputPath input root outDir).Ends ps name []) :
    Keeps fs (jobs inputs root outDir) (drawAll theme fs inputs root outDir).2 := by
  rw [drawAll_eq]
  split
  · exact ⟨hfs, rfl, fun _ => id, fun _ _ h _ => h⟩
  · refine run_keeps theme hfs fun job hjob => ?_
    obtain ⟨input, hinput, rfl⟩ := List.mem_map.mp hjob
    exact hends input hinput

/-- Pages that are found below a directory are never overwritten. -/
theorem readBytes_of_directory (theme : Theme Float) (hfs : fs.WellFormed)
    (h : fs.kind? root = some .directory) (hpages : pagesAt fs root = .ok inputs)
    (outDir : Option Path) {input : Path} (hinput : input ∈ inputs) :
    (drawAll theme fs inputs root outDir).2.readBytes input = fs.readBytes input := by
  have hroot := (FileSystem.refusal?_eq_none_iff.mp (FileSystem.kind?_eq_directory_iff.mp h).1).2
  obtain ⟨inputs', hpages', -, hpage⟩ := exists_pagesAt hfs h
  obtain rfl : inputs = inputs' := Except.ok.inj (hpages.symm.trans hpages')
  obtain ⟨above, stem, hfound⟩ := hpage input hinput
  obtain ⟨bytes, hread⟩ := hfound.readable
  have hkeeps : Keeps fs (jobs inputs root outDir) (drawAll theme fs inputs root outDir).2 := by
    refine drawAll_keeps theme hfs fun other hother => ?_
    obtain ⟨above', stem', hfound'⟩ := hpage other hother
    exact ⟨_, _, hfound'.ends_output hroot outDir⟩
  rw [hread]
  refine hkeeps.readBytes hread fun job hjob => ?_
  obtain ⟨other, hother, rfl⟩ := List.mem_map.mp hjob
  obtain ⟨above', stem', hfound'⟩ := hpage other hother
  exact (hfound'.place_output_ne_place_input hfound hroot outDir).symm

/-! ### Single pages -/

theorem toUTF8_injective {text text' : String} (h : text.toUTF8 = text'.toUTF8) : text = text' :=
  String.toByteArray_inj.mp h

/-- A run of one job leaves what this job leaves. -/
theorem run_singleton_snd (theme : Theme Float) (fs : FileSystem) (job : Job) :
    (run theme fs [job]).2 = (draw theme fs job).2 := by
  rw [run_cons]
  generalize draw theme fs job = result
  obtain ⟨e | bytes, fs'⟩ := result <;> rfl

theorem drawAll_single (theme : Theme Float) (fs : FileSystem) (root : Path)
    (outDir : Option Path) : (drawAll theme fs [root] root outDir).2 =
      (draw theme fs ⟨root, outputPath root root outDir⟩).2 := by
  rw [← run_singleton_snd, drawAll_eq]
  rfl

section Draw

variable {ps : List String} {name text : String} {job : Job} {bytes : ByteArray}
  (h : job.output.Ends ps name []) (hfs : fs.WellFormed)

include h hfs

/-- A drawing that goes to the place of its page is what the page holds then. -/
theorem readBytes_draw_of_ready (hsame : fs.place job.output = fs.place job.input)
    (hread : fs.readBytes job.input = .ok text.toUTF8) (hready : Ready fs job.output)
    (theme : Theme Float) :
    (draw theme fs job).2.readBytes job.input = .ok (Svg.ofText theme text).toUTF8 := by
  obtain ⟨fs', hdraw, hdrawn⟩ :=
    draw_of_ready h hfs hread hready (fun _ => Svg.ofText theme text) rfl
  obtain ⟨hrefusal, hway, -⟩ := FileSystem.readBytes_eq_ok_iff.mp hread
  have hfile := hdrawn.file job (List.mem_singleton.mpr rfl)
  rw [hdraw, FileSystem.readBytes_eq_ok_iff, hdrawn.wayTo_eq, hdrawn.place_eq, ← hsame]
  exact ⟨hrefusal, fun place hplace => hdrawn.directory (hway place hplace), hfile⟩

/-- A page that cannot be drawn is as it was. -/
theorem readBytes_draw_of_not_ready (hread : fs.readBytes job.input = .ok bytes)
    (hnot : ∀ text : String, bytes = text.toUTF8 → ¬ Ready fs job.output) (theme : Theme Float) :
    (draw theme fs job).2.readBytes job.input = .ok bytes := by
  rcases draw_cases h hfs theme with ⟨text, htext, hready⟩ | ⟨e, fs', hdraw, hgrows, -⟩
  · rw [hread] at htext
    exact absurd hready (hnot text (Except.ok.inj htext))
  · rw [hdraw]
    exact FileSystem.readBytes_of_grows hgrows hread

omit h hfs in
/-- Where a page can be read, a drawing can be put. -/
theorem ready_of_same (hsame : fs.place job.output = fs.place job.input)
    (hread : fs.readBytes job.input = .ok bytes) (hclean : job.output.Clean)
    (hclear : fs.Clear (fs.wayTo job.output)) : Ready fs job.output := by
  obtain ⟨-, -, hentry⟩ := FileSystem.readBytes_eq_ok_iff.mp hread
  rw [← hsame] at hentry
  refine ⟨hclean, hclear, ?_, fun hmem => hclear _ hmem bytes hentry⟩
  rw [hentry]
  nofun

variable (job) in
/-- A page is as it was unless its own drawing goes to its place and can be put there. -/
theorem readBytes_draw_eq_iff (hread : fs.readBytes job.input = .ok bytes) (theme : Theme Float) :
    (draw theme fs job).2.readBytes job.input = .ok bytes ↔
      ¬ (fs.place job.output = fs.place job.input ∧ job.output.Clean ∧
        fs.Clear (fs.wayTo job.output) ∧
        ∃ text : String, bytes = text.toUTF8 ∧ Svg.ofText theme text ≠ text) := by
  by_cases hsame : fs.place job.output = fs.place job.input
  · -- the page is overwritten exactly if the drawing can be put in its place
    by_cases hready : ∃ text : String, bytes = text.toUTF8 ∧ Ready fs job.output
    · obtain ⟨text, rfl, hready⟩ := hready
      rw [readBytes_draw_of_ready h hfs hsame hread hready theme]
      constructor
      · rintro hsameText ⟨-, -, -, text', htext', hdiffers⟩
        obtain rfl := toUTF8_injective htext'
        exact hdiffers (toUTF8_injective (Except.ok.inj hsameText))
      · intro hnot
        by_contra hdiffers
        refine hnot ⟨hsame, hready.clean, hready.clear, text, rfl, fun heq => hdiffers ?_⟩
        rw [heq]
    · push Not at hready
      refine iff_of_true (readBytes_draw_of_not_ready h hfs hread hready theme) ?_
      rintro ⟨-, hclean, hclear, text, htext, -⟩
      exact hready text htext (ready_of_same hsame hread hclean hclear)
  · refine iff_of_true ?_ fun hoverwrites => hsame hoverwrites.1
    rw [← run_singleton_snd]
    have hkeeps : Keeps fs [job] (run theme fs [job]).2 :=
      run_keeps theme hfs (List.forall_mem_singleton.mpr ⟨ps, name, h⟩)
    exact hkeeps.readBytes hread (List.forall_mem_singleton.mpr (Ne.symm hsame))

end Draw

/-- A single page is as it was unless its drawing goes to its place and can be put there. -/
theorem readBytes_of_file (theme : Theme Float) (hfs : fs.WellFormed)
    (h : fs.kind? root = some .file) (outDir : Option Path) :
    (drawAll theme fs [root] root outDir).2.readBytes root = fs.readBytes root ↔
      ¬ Overwrites theme fs root outDir := by
  obtain ⟨bytes, hread⟩ := FileSystem.kind?_eq_file_iff.mp h
  obtain ⟨ps, name, hroot⟩ := FileSystem.ends_of_readBytes hfs hread
  obtain ⟨ps', name', hends⟩ := ends_outputPath_self hroot outDir
  have hiff := readBytes_draw_eq_iff ⟨root, outputPath root root outDir⟩ hends hfs hread theme
  rw [drawAll_single, hread, hiff]
  refine not_congr ⟨?_, ?_⟩
  · rintro ⟨hsame, hclean, hclear, text, rfl, hdiffers⟩
    exact ⟨hsame, hclean, hclear, text, hread, hdiffers⟩
  · rintro ⟨hsame, hclean, hclear, text, htext, hdiffers⟩
    rw [hread] at htext
    exact ⟨hsame, hclean, hclear, text, Except.ok.inj htext, hdiffers⟩

/-- **When a batch keeps its pages.** Whatever comes of it, the pages that were found are as they
were, unless a single page is one whose drawing goes to its own place. -/
theorem pages_kept_iff (theme : Theme Float) (hfs : fs.WellFormed)
    (hpages : pagesAt fs root = .ok inputs) (outDir : Option Path) :
    (∀ input ∈ inputs,
      (drawAll theme fs inputs root outDir).2.readBytes input = fs.readBytes input) ↔
      ¬ Overwrites theme fs root outDir := by
  cases hkind : fs.kind? root with
  | none =>
    rw [pagesAt_of_missing hkind] at hpages
    cases hpages
  | some kind =>
    cases kind with
    | file =>
      rw [pagesAt_of_file hkind] at hpages
      cases hpages
      rw [List.forall_mem_singleton]
      exact readBytes_of_file theme hfs hkind outDir
    | directory =>
      refine iff_of_true (fun input hinput => ?_) fun hoverwrites => ?_
      · exact readBytes_of_directory theme hfs hkind hpages outDir hinput
      · obtain ⟨text, hread, -⟩ := hoverwrites.differs
        rw [FileSystem.kind?_eq_file_iff.mpr ⟨_, hread⟩] at hkind
        cases hkind

/-! ### A tree with one page -/

/-- A tree with one file in its root, where paths start. -/
def onePage (name text : String) : FileSystem :=
  (FileSystem.empty []).put ([] ++ [name]) (.file text.toUTF8)

theorem entry?_onePage (name text : String) :
    FileSystem.entry? (onePage name text) [name] = some (.file text.toUTF8) :=
  (FileSystem.entry?_put (List.cons_ne_nil _ _) _ _ _).trans (if_pos rfl)

theorem entry?_onePage_of_ne {name : String} {place : Location} (hnil : place ≠ [])
    (hname : place ≠ [name]) (text : String) :
    FileSystem.entry? (onePage name text) place = none := by
  have hprefix : ¬ place <+: [] := by rwa [List.prefix_nil]
  have hput := FileSystem.entry?_put (List.concat_ne_nil name []) (FileSystem.empty [])
    (.file text.toUTF8) place
  exact hput.trans ((if_neg hname).trans ((FileSystem.entry?_empty place).trans (if_neg hprefix)))

/-- The page is only in the way to what is at its place. -/
theorem clear_onePage {name : String} {places : List Location} (h : [name] ∉ places)
    (text : String) : (onePage name text).Clear places := by
  intro place hplace bytes hfile
  have hne : place ≠ [name] := by
    rintro rfl
    exact h hplace
  by_cases hnil : place = []
  · rw [hnil, FileSystem.entry?_nil] at hfile
    cases hfile
  · rw [entry?_onePage_of_ne hnil hne] at hfile
    cases hfile

/-- One file with a proper name makes a well-formed tree. -/
theorem wellFormed_onePage {name : String} (hname : Path.IsName name) (text : String) :
    (onePage name text).WellFormed := by
  have hempty : (FileSystem.empty []).WellFormed :=
    FileSystem.wellFormed_empty fun _ hmem => absurd hmem List.not_mem_nil
  refine hempty.put (FileSystem.entry?_nil _) hname (.inr ?_)
  rw [FileSystem.entry?_empty, List.nil_append, if_neg]
  · exact Option.some_ne_none _ ∘ Eq.symm
  · rw [List.prefix_nil]
    exact List.cons_ne_nil _ _

section Name

variable {name : String} (h : Path.IsName name)

include h

theorem split_name : (Path.mk name).split = (.none, [name]) := by
  have hsplit := Path.split_joined (List.cons_ne_nil name []) (by simpa using h)
  rwa [Path.joined_singleton] at hsplit

theorem origin_onePage (text : String) : (onePage name text).origin ⟨name⟩ = [] := by
  rw [FileSystem.origin, Path.isAbsolute, split_name h]
  rfl

theorem place_onePage (text : String) : (onePage name text).place ⟨name⟩ = [name] := by
  rw [FileSystem.place, origin_onePage h, split_name h,
    FileSystem.reach_names (List.forall_mem_singleton.mpr h), List.nil_append]

theorem wayTo_onePage (text : String) : (onePage name text).wayTo ⟨name⟩ = [[]] := by
  rw [FileSystem.wayTo, origin_onePage h, split_name h]
  rfl

theorem readBytes_onePage (text : String) :
    (onePage name text).readBytes ⟨name⟩ = .ok text.toUTF8 := by
  have hclean : (Path.mk name).Clean := h.no_null
  have hne : (Path.mk name).text ≠ "" := by
    rintro rfl
    exact absurd h.not_idle (by decide)
  rw [FileSystem.readBytes_eq_ok_iff, FileSystem.refusal?_eq_none_iff, place_onePage h,
    wayTo_onePage h]
  exact ⟨⟨hclean, hne⟩, List.forall_mem_singleton.mpr (FileSystem.entry?_nil _),
    entry?_onePage name text⟩

theorem pagesAt_onePage (text : String) : pagesAt (onePage name text) ⟨name⟩ = .ok [⟨name⟩] :=
  pagesAt_of_file (FileSystem.kind?_eq_file_iff.mpr ⟨_, readBytes_onePage h text⟩)

end Name

/-- A drawing begins with a mark-up declaration. -/
theorem head?_ofText (theme : Theme Float) (text : String) :
    (Svg.ofText theme text).toList.head? = some '<' := by
  have hdeclaration : Xml.declaration ≠ [] ∧ Xml.declaration.head? = some '<' := by decide
  rw [Svg.ofText, Svg.ofDocument, String.toList_ofList, Xml.document,
    List.head?_append_of_ne_nil _ hdeclaration.1, hdeclaration.2]

/-- A page that has another name than its drawing would have is kept. -/
theorem pages_kept_page_txt : (onePage "page.txt" "# Home").WellFormed ∧
    pagesAt (onePage "page.txt" "# Home") ⟨"page.txt"⟩ = .ok [⟨"page.txt"⟩] ∧
    ∀ input ∈ [Path.mk "page.txt"],
      (drawAll .standard (onePage "page.txt" "# Home") [⟨"page.txt"⟩] ⟨"page.txt"⟩
        none).2.readBytes input = (onePage "page.txt" "# Home").readBytes input := by
  have hname : Path.IsName "page.txt" := by decide
  have hpages := pagesAt_onePage hname "# Home"
  refine ⟨wellFormed_onePage hname _, hpages,
    (pages_kept_iff .standard (wellFormed_onePage hname _) hpages none).mpr fun h => ?_⟩
  have hsame := h.same
  have houtput : outputPath ⟨"page.txt"⟩ ⟨"page.txt"⟩ none = ⟨"page.svg"⟩ := by decide
  rw [houtput, place_onePage hname, FileSystem.place, FileSystem.origin,
    split_name (by decide : Path.IsName "page.svg")] at hsame
  revert hsame
  decide

/-- A page that has the name of its own drawing is lost. -/
theorem page_svg_lost : (onePage "page.svg" "# Home").WellFormed ∧
    pagesAt (onePage "page.svg" "# Home") ⟨"page.svg"⟩ = .ok [⟨"page.svg"⟩] ∧
    (drawAll .standard (onePage "page.svg" "# Home") [⟨"page.svg"⟩] ⟨"page.svg"⟩
        none).2.readBytes ⟨"page.svg"⟩ ≠ (onePage "page.svg" "# Home").readBytes ⟨"page.svg"⟩ := by
  have hname : Path.IsName "page.svg" := by decide
  have hpages := pagesAt_onePage hname "# Home"
  have hfs := wellFormed_onePage hname "# Home"
  have hread := readBytes_onePage hname "# Home"
  have houtput : outputPath ⟨"page.svg"⟩ ⟨"page.svg"⟩ none = ⟨"page.svg"⟩ := by decide
  have hkind : (onePage "page.svg" "# Home").kind? ⟨"page.svg"⟩ = some .file :=
    FileSystem.kind?_eq_file_iff.mpr ⟨_, hread⟩
  refine ⟨hfs, hpages, fun hsame => (readBytes_of_file .standard hfs hkind none).mp hsame ?_⟩
  refine ⟨by rw [houtput], by rw [houtput]; exact hname.no_null, ?_, "# Home", hread, ?_⟩
  · rw [houtput, wayTo_onePage hname]
    intro place hplace bytes hfile
    rw [List.mem_singleton.mp hplace, FileSystem.entry?_nil] at hfile
    cases hfile
  · intro htext
    have hhead := head?_ofText .standard "# Home"
    rw [htext] at hhead
    revert hhead
    decide

end Wireframe.Batch
