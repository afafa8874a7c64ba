import Wireframe.Proofs.Batch.Clashes

/-!
# The order of the jobs of a batch

The jobs of a batch may be done in any order. What decides whether they all succeed is the tree
before the batch and not what other jobs have done to it (`Batch.Feasible`): jobs that read no
drawing of the batch and draw to places of their own do not get in each other's way, except that one
may need a directory where another puts its drawing, and then no order does them all. What they come
to together does not depend on the order either, since it says what each place holds
(`Batch.Drawn.unique`).
-/

namespace Wireframe.Batch

variable {fs fs' fs'' : FileSystem} {jobs jobs' : List Job} {job : Job} {path : Path}
  {drawing drawing' : Job → String} {theme : Theme Float}

/-! ### What a job draws -/

/-- The text of a page; empty if there is none to be read. -/
def textOf (fs : FileSystem) (path : Path) : String :=
  match (fs.readBytes path).bind Disk.textOfBytes with
  | .ok text => text
  | .error _ => ""

/-- Whether a page is there and is a text. -/
def Readable (fs : FileSystem) (path : Path) : Prop :=
  fs.readBytes path = .ok (textOf fs path).toUTF8

theorem textOf_congr (h : fs'.readBytes path = fs.readBytes path) :
    textOf fs' path = textOf fs path := by
  rw [textOf, textOf, h]

theorem textOf_of_readBytes {text : String} (h : fs.readBytes path = .ok text.toUTF8) :
    textOf fs path = text := by
  rw [textOf, h, Except.bind, Disk.textOfBytes_toUTF8]

theorem readable_of_readBytes {text : String} (h : fs.readBytes path = .ok text.toUTF8) :
    Readable fs path := by
  rw [Readable, textOf_of_readBytes h, h]

/-- The drawing for a job. -/
def drawingOf (theme : Theme Float) (fs : FileSystem) (job : Job) : String :=
  Svg.ofText theme (textOf fs job.input)

/-- What a job gives when it is done. -/
def rendered (theme : Theme Float) (fs : FileSystem) (job : Job) : Rendered :=
  ⟨job.input, job.output, (drawingOf theme fs job).utf8ByteSize⟩

/-! ### Jobs that can be done -/

/-- Jobs with pages that are there and drawings that go to places of their own. -/
structure Separate (fs : FileSystem) (jobs : List Job) : Prop where
  found : ∀ job ∈ jobs, ∃ bytes, fs.readBytes job.input = .ok bytes
  ends : ∀ job ∈ jobs, ∃ ps name, job.output.Ends ps name []
  pages : ∀ job ∈ jobs, ∀ job' ∈ jobs, fs.place job.input ≠ fs.place job'.output
  drawings : jobs.Pairwise fun job job' => fs.place job.output ≠ fs.place job'.output

/-- What it takes for jobs to be done: for each one that its page is a text, that no file is on the
way to its drawing, and that no directory is where the drawing goes, also none that another drawing
needs. -/
structure Feasible (fs : FileSystem) (jobs : List Job) : Prop where
  readable : ∀ job ∈ jobs, Readable fs job.input
  clean : ∀ job ∈ jobs, job.output.Clean
  clear : ∀ job ∈ jobs, fs.Clear (fs.wayTo job.output)
  free : ∀ job ∈ jobs, fs.entry? (fs.place job.output) ≠ some .directory
  apart : ∀ job ∈ jobs, ∀ job' ∈ jobs, fs.place job.output ∉ fs.wayTo job'.output

namespace Separate

theorem perm (h : Separate fs jobs) (hperm : jobs'.Perm jobs) : Separate fs jobs' where
  found job hjob := h.found job (hperm.subset hjob)
  ends job hjob := h.ends job (hperm.subset hjob)
  pages job hjob job' hjob' := h.pages job (hperm.subset hjob) job' (hperm.subset hjob')
  drawings := hperm.symm.pairwise h.drawings fun hne => hne.symm

theorem place_ne (h : Separate fs (job :: jobs)) {job' : Job} (hjob' : job' ∈ jobs) :
    fs.place job.output ≠ fs.place job'.output :=
  (List.pairwise_cons.mp h.drawings).1 job' hjob'

/-- The page of another job is as it was when the first job has been done. -/
theorem page_of_drawn (h : Separate fs (job :: jobs)) (hdrawn : Drawn fs [job] drawing fs')
    {job' : Job} (hjob' : job' ∈ jobs) : fs'.readBytes job'.input = fs.readBytes job'.input := by
  obtain ⟨bytes, hread⟩ := h.found job' (List.mem_cons_of_mem _ hjob')
  rw [hread]
  refine hdrawn.readBytes_of_ne hread (List.forall_mem_singleton.mpr ?_)
  exact h.pages job' (List.mem_cons_of_mem _ hjob') job (List.mem_cons_self ..)

/-- Jobs stay separate when one of them has been drawn. -/
theorem of_drawn (h : Separate fs (job :: jobs)) (hdrawn : Drawn fs [job] drawing fs') :
    Separate fs' jobs where
  found job' hjob' := by
    rw [h.page_of_drawn hdrawn hjob']
    exact h.found job' (List.mem_cons_of_mem _ hjob')
  ends job' hjob' := h.ends job' (List.mem_cons_of_mem _ hjob')
  pages job' hjob' job'' hjob'' := by
    rw [hdrawn.place_eq, hdrawn.place_eq]
    exact h.pages job' (List.mem_cons_of_mem _ hjob') job'' (List.mem_cons_of_mem _ hjob'')
  drawings := by
    simp only [hdrawn.place_eq]
    exact (List.pairwise_cons.mp h.drawings).2

end Separate

namespace Feasible

theorem perm (h : Feasible fs jobs) (hperm : jobs'.Perm jobs) : Feasible fs jobs' where
  readable job hjob := h.readable job (hperm.subset hjob)
  clean job hjob := h.clean job (hperm.subset hjob)
  clear job hjob := h.clear job (hperm.subset hjob)
  free job hjob := h.free job (hperm.subset hjob)
  apart job hjob job' hjob' := h.apart job (hperm.subset hjob) job' (hperm.subset hjob')

/-- Every job of a feasible run can be drawn at once. -/
theorem ready (h : Feasible fs jobs) (hjob : job ∈ jobs) : Ready fs job.output where
  clean := h.clean job hjob
  clear := h.clear job hjob
  free := h.free job hjob
  apart := h.apart job hjob job hjob

end Feasible

/-! ### What jobs come to -/

namespace Drawn

theorem nil (hfs : fs.WellFormed) : Drawn fs [] drawing fs where
  wellFormed := hfs
  workingDirectory := rfl
  free := fun _ hjob => absurd hjob List.not_mem_nil
  file := fun _ hjob => absurd hjob List.not_mem_nil
  way := fun _ hjob => absurd hjob List.not_mem_nil
  other := fun _ _ => .inl rfl

/-- Only the drawings of the jobs that were run matter. -/
theorem congr (h : Drawn fs jobs drawing fs')
    (hdrawing : ∀ job ∈ jobs, drawing job = drawing' job) :
    Drawn fs jobs drawing' fs' where
  wellFormed := h.wellFormed
  workingDirectory := h.workingDirectory
  free := h.free
  file job hjob := by
    rw [← hdrawing job hjob]
    exact h.file job hjob
  way := h.way
  other := h.other

/-- What jobs come to depends on nothing but which jobs they are. -/
theorem unique (h : Drawn fs jobs drawing fs') (h' : Drawn fs jobs' drawing fs'')
    (hperm : jobs'.Perm jobs) : fs' = fs'' := by
  refine h.wellFormed.ext h'.wellFormed (h.workingDirectory.trans h'.workingDirectory.symm)
    fun place => ?_
  by_cases hfile : ∃ job ∈ jobs, place = fs.place job.output
  · obtain ⟨job, hjob, rfl⟩ := hfile
    rw [h.file job hjob, h'.file job (hperm.mem_iff.mpr hjob)]
  · by_cases hway : ∃ job ∈ jobs, place ∈ fs.wayTo job.output
    · obtain ⟨job, hjob, hplace⟩ := hway
      rw [h.way job hjob place hplace, h'.way job (hperm.mem_iff.mpr hjob) place hplace]
    · push Not at hfile
      have hsame := (h.other place hfile).resolve_right fun hmade => hway hmade.1
      have hsame' := (h'.other place fun job hjob => hfile job (hperm.subset hjob)).resolve_right
        fun ⟨⟨job, hjob, hplace⟩, _⟩ => hway ⟨job, hperm.subset hjob, hplace⟩
      rw [hsame, hsame']

/-- What can be read from where the drawing of a job goes is the drawing. -/
theorem readBytes_output {ps : List String} {name : String} (h : Drawn fs jobs drawing fs')
    (hjob : job ∈ jobs) (hclean : job.output.Clean) (hends : job.output.Ends ps name []) :
    fs'.readBytes job.output = .ok (drawing job).toUTF8 := by
  have hne := Path.text_ne_of_split (by rw [← hends.pieces]) hends.isName.not_idle
  rw [FileSystem.readBytes_eq_ok_iff, h.wayTo_eq, h.place_eq]
  exact ⟨FileSystem.refusal?_eq_none_iff.mpr ⟨hclean, hne⟩, h.way job hjob, h.file job hjob⟩

/-- Jobs that have been done could be done. -/
theorem feasible (h : Drawn fs jobs drawing fs') (hreadable : ∀ job ∈ jobs, Readable fs job.input)
    (hclean : ∀ job ∈ jobs, job.output.Clean) : Feasible fs jobs where
  readable := hreadable
  clean := hclean
  clear job hjob place hplace bytes hfile := by
    -- the directory that is there now has not come about from the file
    have hway := h.way job hjob place hplace
    by_cases hdrawing : ∃ job' ∈ jobs, place = fs.place job'.output
    · obtain ⟨job', hjob', rfl⟩ := hdrawing
      rw [h.file job' hjob'] at hway
      cases hway
    · push Not at hdrawing
      rw [h.file_of_ne hfile hdrawing] at hway
      cases hway
  free := h.free
  apart job hjob job' hjob' hmem := by
    have hway := h.way job' hjob' _ hmem
    rw [h.file job hjob] at hway
    cases hway

end Drawn

/-! ### Runs -/

/-- Jobs that have all been done come to their drawings. -/
theorem drawn_of_run (hfs : fs.WellFormed) (hsep : Separate fs jobs) {done : List Rendered}
    (h : (run theme fs jobs).1 = .ok done) :
    (∀ job ∈ jobs, Readable fs job.input ∧ job.output.Clean) ∧
      Drawn fs jobs (drawingOf theme fs) (run theme fs jobs).2 := by
  induction jobs generalizing fs done with
  | nil => exact ⟨fun _ hjob => absurd hjob List.not_mem_nil, .nil hfs⟩
  | cons job rest ih =>
    obtain ⟨ps, name, hends⟩ := hsep.ends job (List.mem_cons_self ..)
    rw [run_cons] at h ⊢
    -- the first job was done, or the run would have ended with it
    rcases draw_cases hends hfs theme with ⟨text, hread, hready⟩ | ⟨e, fs', hdraw, -⟩
    · have hreadable : Readable fs job.input := readable_of_readBytes hread
      obtain ⟨fs', hdraw, hdrawn⟩ :=
        draw_of_ready hends hfs hreadable hready (drawingOf theme fs) rfl
      rw [hdraw] at h ⊢
      dsimp only at h ⊢
      obtain ⟨done', hdone'⟩ : ∃ done', (run theme fs' rest).1 = .ok done' := by
        generalize (run theme fs' rest).1 = result at h
        cases result with
        | error e => cases h
        | ok done' => exact ⟨done', rfl⟩
      obtain ⟨hrest, hdrawn'⟩ := ih hdrawn.wellFormed (hsep.of_drawn hdrawn) hdone'
      refine ⟨List.forall_mem_cons.mpr ⟨⟨hreadable, hready.clean⟩, fun job' hjob' => ?_⟩, ?_⟩
      · -- its drawing went elsewhere, so the other pages are what they were
        obtain ⟨hreadable', hclean'⟩ := hrest job' hjob'
        have hpage := hsep.page_of_drawn hdrawn hjob'
        rw [Readable, hpage, textOf_congr hpage] at hreadable'
        exact ⟨hreadable', hclean'⟩
      · refine hdrawn.append (hdrawn'.congr fun job' hjob' => ?_) ?_
        · rw [drawingOf, drawingOf, textOf_congr (hsep.page_of_drawn hdrawn hjob')]
        · exact List.forall_mem_singleton.mpr fun job' hjob' => hsep.place_ne hjob'
    · rw [hdraw] at h
      cases h

/-- Jobs that are left can be done as before when the first one has been done. -/
theorem Feasible.of_drawn (h : Feasible fs (job :: jobs)) (hsep : Separate fs (job :: jobs))
    (hdrawn : Drawn fs [job] drawing fs') : Feasible fs' jobs where
  readable job' hjob' := by
    have hpage := hsep.page_of_drawn hdrawn hjob'
    rw [Readable, hpage, textOf_congr hpage]
    exact h.readable job' (List.mem_cons_of_mem _ hjob')
  clean job' hjob' := h.clean job' (List.mem_cons_of_mem _ hjob')
  clear job' hjob' place hplace bytes hfile := by
    rw [hdrawn.wayTo_eq] at hplace
    have hne : place ≠ fs.place job.output := by
      rintro rfl
      exact h.apart job (List.mem_cons_self ..) job' (List.mem_cons_of_mem _ hjob') hplace
    -- on the way to another drawing the first job has made directories at most
    rcases hdrawn.other place (List.forall_mem_singleton.mpr hne) with hsame | ⟨-, -, hmade⟩
    · rw [hsame] at hfile
      exact h.clear job' (List.mem_cons_of_mem _ hjob') place hplace bytes hfile
    · rw [hmade] at hfile
      cases hfile
  free job' hjob' hdirectory := by
    rw [hdrawn.place_eq] at hdirectory
    have hne : fs.place job'.output ≠ fs.place job.output := (hsep.place_ne hjob').symm
    rcases hdrawn.other _ (List.forall_mem_singleton.mpr hne) with hsame | ⟨hmem, -, -⟩
    · rw [hsame] at hdirectory
      exact h.free job' (List.mem_cons_of_mem _ hjob') hdirectory
    · obtain ⟨first, hfirst, hmem⟩ := hmem
      rw [List.mem_singleton.mp hfirst] at hmem
      exact h.apart job' (List.mem_cons_of_mem _ hjob') job (List.mem_cons_self ..) hmem
  apart job' hjob' job'' hjob'' := by
    rw [hdrawn.place_eq, hdrawn.wayTo_eq]
    exact h.apart job' (List.mem_cons_of_mem _ hjob') job'' (List.mem_cons_of_mem _ hjob'')

/-- Jobs that can be done are done. -/
theorem run_of_feasible (hfs : fs.WellFormed) (hsep : Separate fs jobs) (h : Feasible fs jobs)
    (theme : Theme Float) : ∃ fs', run theme fs jobs = (.ok (jobs.map (rendered theme fs)), fs') ∧
      Drawn fs jobs (drawingOf theme fs) fs' := by
  induction jobs generalizing fs with
  | nil => exact ⟨fs, run_nil theme fs, .nil hfs⟩
  | cons job rest ih =>
    obtain ⟨ps, name, hends⟩ := hsep.ends job (List.mem_cons_self ..)
    have hreadable := h.readable job (List.mem_cons_self ..)
    obtain ⟨fs', hdraw, hdrawn⟩ := draw_of_ready hends hfs hreadable
      (h.ready (List.mem_cons_self ..)) (drawingOf theme fs) rfl
    obtain ⟨fs'', hrun, hdrawn'⟩ :=
      ih hdrawn.wellFormed (hsep.of_drawn hdrawn) (h.of_drawn hsep hdrawn)
    have hdrawing : ∀ job' ∈ rest, drawingOf theme fs' job' = drawingOf theme fs job' := by
      intro job' hjob'
      rw [drawingOf, drawingOf, textOf_congr (hsep.page_of_drawn hdrawn hjob')]
    have hrendered : rest.map (rendered theme fs') = rest.map (rendered theme fs) :=
      List.map_congr_left fun job' hjob' => by rw [rendered, rendered, hdrawing job' hjob']
    refine ⟨fs'', ?_, hdrawn.append (hdrawn'.congr hdrawing)
      (List.forall_mem_singleton.mpr fun job' hjob' => hsep.place_ne hjob')⟩
    rw [run_cons, hdraw]
    dsimp only
    rw [hrun, hrendered]
    rfl

/-- If jobs are all done in one order, they can be done in any. -/
theorem feasible_of_run (hfs : fs.WellFormed) (hsep : Separate fs jobs) {done : List Rendered}
    (h : (run theme fs jobs).1 = .ok done) : Feasible fs jobs := by
  obtain ⟨hpages, hdrawn⟩ := drawn_of_run hfs hsep h
  exact hdrawn.feasible (fun job hjob => (hpages job hjob).1) fun job hjob => (hpages job hjob).2

/-! ### Batches of pages -/

variable {root : Path} {inputs : List Path}

/-- Paths that lead to different places are not the same. -/
theorem duplicate?_eq_none {earlier : List Path}
    (hearlier : ∀ output ∈ earlier, ∀ job ∈ jobs, fs.place job.output ≠ fs.place output)
    (hjobs : jobs.Pairwise fun job job' => fs.place job.output ≠ fs.place job'.output) :
    duplicate? earlier jobs = none := by
  refine duplicate?_eq_none_iff.mpr ⟨?_, fun job hjob output houtput hsame => ?_⟩
  · rw [List.Nodup, List.pairwise_map]
    exact hjobs.imp fun hne hsame => hne (FileSystem.place_eq_of_components fs hsame)
  · exact hearlier output houtput job hjob (FileSystem.place_eq_of_components fs hsame)

/-- The jobs for the pages below a directory draw to places of their own. -/
theorem separate_jobs (hfs : fs.WellFormed) (h : fs.kind? root = some .directory)
    (hpages : pagesAt fs root = .ok inputs) (outDir : Option Path) :
    Separate fs (Batch.jobs inputs root outDir) := by
  have hroot := (FileSystem.refusal?_eq_none_iff.mp (FileSystem.kind?_eq_directory_iff.mp h).1).2
  obtain ⟨inputs', hpages', hnodup, hpage⟩ := exists_pagesAt hfs h
  obtain rfl : inputs = inputs' := Except.ok.inj (hpages.symm.trans hpages')
  -- each page is known by the names below the root and its stem, and so is its drawing
  refine ⟨?_, ?_, ?_, ?_⟩
  · simp only [Batch.jobs, List.forall_mem_map]
    intro input hinput
    obtain ⟨above, stem, hfound⟩ := hpage input hinput
    exact hfound.readable
  · simp only [Batch.jobs, List.forall_mem_map]
    intro input hinput
    obtain ⟨above, stem, hfound⟩ := hpage input hinput
    exact ⟨_, _, hfound.ends_output hroot outDir⟩
  · simp only [Batch.jobs, List.forall_mem_map]
    intro input hinput input' hinput'
    obtain ⟨above, stem, hfound⟩ := hpage input hinput
    obtain ⟨above', stem', hfound'⟩ := hpage input' hinput'
    exact (hfound'.place_output_ne_place_input hfound hroot outDir).symm
  · rw [Batch.jobs, List.pairwise_map]
    refine hnodup.imp_of_mem fun {input input'} hinput hinput' hne heq => hne ?_
    obtain ⟨above, stem, hfound⟩ := hpage input hinput
    obtain ⟨above', stem', hfound'⟩ := hpage input' hinput'
    exact hfound.eq_of_place_output hfound' hroot outDir heq

/-- What a batch comes to: each drawing is where it goes, the pages are as they were, and nothing
else is different but directories on the way to drawings that had been missing. -/
structure Outcome (theme : Theme Float) (fs : FileSystem) (inputs : List Path) (root : Path)
    (outDir : Option Path) (fs' : FileSystem) : Prop where
  workingDirectory : fs'.workingDirectory = fs.workingDirectory
  text : ∀ input ∈ inputs, fs.readBytes input = .ok (textOf fs input).toUTF8
  page : ∀ input ∈ inputs, fs'.readBytes input = fs.readBytes input
  drawing : ∀ input ∈ inputs, fs'.readBytes (outputPath input root outDir) =
    .ok (Svg.ofText theme (textOf fs input)).toUTF8
  other : ∀ place, (∀ input ∈ inputs, place ≠ fs.place (outputPath input root outDir)) →
    fs'.entry? place = fs.entry? place ∨
      (∃ input ∈ inputs, place ∈ fs.wayTo (outputPath input root outDir)) ∧
        fs.entry? place = none ∧ fs'.entry? place = some .directory

/-- What drawing all the jobs comes to, when nothing stands in their way. -/
theorem outcome_of_drawn {outDir : Option Path} (hsep : Separate fs (Batch.jobs inputs root outDir))
    (hfeasible : Feasible fs (Batch.jobs inputs root outDir))
    (h : Drawn fs (Batch.jobs inputs root outDir) (drawingOf theme fs) fs') :
    Outcome theme fs inputs root outDir fs' := by
  have hjob {input : Path} (hinput : input ∈ inputs) :
      ⟨input, outputPath input root outDir⟩ ∈ Batch.jobs inputs root outDir :=
    List.mem_map_of_mem hinput
  refine ⟨h.workingDirectory, fun input hinput => hfeasible.readable _ (hjob hinput),
    fun input hinput => ?_, fun input hinput => ?_, fun place hplace => ?_⟩
  · obtain ⟨bytes, hread⟩ := hsep.found _ (hjob hinput)
    rw [hread]
    exact h.readBytes_of_ne hread (hsep.pages ⟨input, outputPath input root outDir⟩ (hjob hinput))
  · obtain ⟨ps, name, hends⟩ := hsep.ends _ (hjob hinput)
    have hread := h.readBytes_output (hjob hinput) (hfeasible.clean _ (hjob hinput)) hends
    dsimp only [drawingOf] at hread
    exact hread
  · simpa [Batch.jobs] using h.other place (by simpa [Batch.jobs] using hplace)

/-- **The order of drawing makes no difference.** If the pages below a directory can be drawn one
after the other in some order, they can be drawn in every order, as a batch too, and it all comes to
the same tree. -/
theorem run_perm (theme : Theme Float) (hfs : fs.WellFormed)
    (h : fs.kind? root = some .directory) (outDir : Option Path) :
    ∃ inputs, pagesAt fs root = .ok inputs ∧ ∀ order done,
      order.Perm (Batch.jobs inputs root outDir) → (run theme fs order).1 = .ok done →
        ∃ fs', Outcome theme fs inputs root outDir fs' ∧
          (∀ order', order'.Perm (Batch.jobs inputs root outDir) →
            run theme fs order' = (.ok (order'.map (rendered theme fs)), fs')) ∧
          drawAll theme fs inputs root outDir =
            (.ok (inputs.map fun input => ⟨input, outputPath input root outDir,
              (Svg.ofText theme (textOf fs input)).utf8ByteSize⟩), fs') := by
  obtain ⟨inputs, hpages, -⟩ := exists_pagesAt hfs h
  refine ⟨inputs, hpages, fun order done hperm hrun => ?_⟩
  have hsep := separate_jobs hfs h hpages outDir
  -- that one order can be done shows that nothing is in the way of any
  have hfeasible := (feasible_of_run hfs (hsep.perm hperm) hrun).perm hperm.symm
  obtain ⟨fs', hrun', hdrawn⟩ := run_of_feasible hfs hsep hfeasible theme
  refine ⟨fs', outcome_of_drawn hsep hfeasible hdrawn, fun order' hperm' => ?_, ?_⟩
  · obtain ⟨fs'', hrun'', hdrawn''⟩ :=
      run_of_feasible hfs (hsep.perm hperm') (hfeasible.perm hperm') theme
    rw [hrun'', hdrawn.unique hdrawn'' hperm']
  · have hnone : duplicate? [] (Batch.jobs inputs root outDir) = none :=
      duplicate?_eq_none (fun _ houtput => absurd houtput List.not_mem_nil) hsep.drawings
    rw [drawAll_eq, hnone]
    dsimp only
    rw [hrun', Batch.jobs, List.map_map]
    rfl

/-! ### A tree with two pages -/

/-- A tree with two files in its root, where paths start. -/
def twoPages : FileSystem := (onePage "a.txt" "# A").put ([] ++ ["b.txt"]) (.file "# B".toUTF8)

theorem entry?_twoPages (place : Location) : twoPages.entry? place =
    if place = ["b.txt"] then some (.file "# B".toUTF8)
    else if place = ["a.txt"] then some (.file "# A".toUTF8)
    else if place = [] then some .directory else none := by
  rw [twoPages, FileSystem.entry?_put (List.concat_ne_nil _ _), onePage,
    FileSystem.entry?_put (List.concat_ne_nil _ _), FileSystem.entry?_empty]
  simp only [List.prefix_nil, List.nil_append]

theorem wellFormed_twoPages : twoPages.WellFormed := by
  have hone := wellFormed_onePage (by decide : Path.IsName "a.txt") "# A"
  refine hone.put (FileSystem.entry?_nil _) (by decide) (.inr ?_)
  rw [onePage, FileSystem.entry?_put (List.concat_ne_nil _ _), FileSystem.entry?_empty,
    if_neg (by decide), if_neg (by decide)]
  exact Option.some_ne_none _ ∘ Eq.symm

theorem kind?_twoPages : twoPages.kind? ⟨"."⟩ = some .directory := by
  have hrefusal : FileSystem.refusal? ⟨"."⟩ = none := by decide
  have hway : twoPages.wayTo ⟨"."⟩ = [] := by decide
  have hplace : twoPages.place ⟨"."⟩ = [] := by decide
  rw [FileSystem.kind?_eq_directory_iff, hway, hplace]
  exact ⟨hrefusal, fun _ hmem => absurd hmem List.not_mem_nil, FileSystem.entry?_nil _⟩

theorem filesBelow_twoPages : (twoPages.filesBelow ⟨"."⟩).Perm [["b.txt"], ["a.txt"]] := by
  have hplace : twoPages.place ⟨"."⟩ = [] := by decide
  rw [List.perm_ext_iff_of_nodup (FileSystem.nodup_filesBelow _ _) (by decide)]
  intro ns
  rw [FileSystem.mem_filesBelow kind?_twoPages, hplace, List.nil_append, entry?_twoPages]
  split_ifs with hb ha hnil <;> simp [*]

theorem pagesAt_twoPages : ∃ inputs, pagesAt twoPages ⟨"."⟩ = .ok inputs ∧
    inputs.Perm [⟨"./b.txt"⟩, ⟨"./a.txt"⟩] := by
  refine ⟨_, pagesAt_of_directory kind?_twoPages, ?_⟩
  have hperm := (filesBelow_twoPages.filter isPage).map fun ns =>
    (Path.mk ".").join ⟨Path.joined ns⟩
  refine hperm.trans (.of_eq ?_)
  decide

theorem jobs_twoPages : Batch.jobs [⟨"./b.txt"⟩, ⟨"./a.txt"⟩] ⟨"."⟩ none =
    [⟨⟨"./b.txt"⟩, ⟨"./b.svg"⟩⟩, ⟨⟨"./a.txt"⟩, ⟨"./a.svg"⟩⟩] := by decide

/-- Both pages can be read. -/
theorem readable_twoPages {path : Path} {name text : String} (hclean : path.Clean)
    (hne : path.text ≠ "") (hway : twoPages.wayTo path = [[]])
    (hplace : twoPages.place path = [name])
    (hentry : twoPages.entry? [name] = some (.file text.toUTF8)) : Readable twoPages path := by
  refine readable_of_readBytes (FileSystem.readBytes_eq_ok_iff.mpr
    ⟨FileSystem.refusal?_eq_none_iff.mpr ⟨hclean, hne⟩, ?_, hplace ▸ hentry⟩)
  rw [hway]
  exact List.forall_mem_singleton.mpr (FileSystem.entry?_nil _)

theorem feasible_twoPages :
    Feasible twoPages [⟨⟨"./b.txt"⟩, ⟨"./b.svg"⟩⟩, ⟨⟨"./a.txt"⟩, ⟨"./a.svg"⟩⟩] := by
  have hway (path : Path) (h : path = ⟨"./b.svg"⟩ ∨ path = ⟨"./a.svg"⟩) :
      twoPages.wayTo path = [[]] := by
    rcases h with rfl | rfl <;> decide
  have hb : twoPages.place ⟨"./b.svg"⟩ = ["b.svg"] := by decide
  have ha : twoPages.place ⟨"./a.svg"⟩ = ["a.svg"] := by decide
  have hclear : twoPages.Clear [[]] := by
    intro place hplace bytes hfile
    rw [List.mem_singleton.mp hplace, FileSystem.entry?_nil] at hfile
    cases hfile
  constructor <;> simp only [List.forall_mem_cons, List.not_mem_nil, false_imp_iff, implies_true,
    and_true, hway, hb, ha, true_or, or_true, entry?_twoPages]
  · exact ⟨readable_twoPages (by decide) (by decide) (by decide) (by decide : _ = ["b.txt"])
        (entry?_twoPages _),
      readable_twoPages (by decide) (by decide) (by decide) (by decide : _ = ["a.txt"])
        (entry?_twoPages _)⟩
  · decide
  · exact ⟨hclear, hclear⟩
  · decide
  · decide

/-- Two pages can be drawn, so they can be drawn in either order. -/
theorem run_perm_twoPages : twoPages.WellFormed ∧ twoPages.kind? ⟨"."⟩ = some .directory ∧
    ∃ inputs fs', pagesAt twoPages ⟨"."⟩ = .ok inputs ∧
      inputs.Perm [⟨"./b.txt"⟩, ⟨"./a.txt"⟩] ∧ Outcome .standard twoPages inputs ⟨"."⟩ none fs' ∧
      ∀ order, order.Perm (Batch.jobs inputs ⟨"."⟩ none) →
        run .standard twoPages order = (.ok (order.map (rendered .standard twoPages)), fs') := by
  refine ⟨wellFormed_twoPages, kind?_twoPages, ?_⟩
  obtain ⟨inputs, hpages, hall⟩ := run_perm .standard wellFormed_twoPages kind?_twoPages none
  obtain ⟨inputs', hpages', hperm⟩ := pagesAt_twoPages
  obtain rfl : inputs = inputs' := Except.ok.inj (hpages.symm.trans hpages')
  have hjobs : [⟨⟨"./b.txt"⟩, ⟨"./b.svg"⟩⟩, ⟨⟨"./a.txt"⟩, ⟨"./a.svg"⟩⟩].Perm
      (Batch.jobs inputs ⟨"."⟩ none) := by
    rw [← jobs_twoPages]
    exact hperm.symm.map _
  have hsep := (separate_jobs wellFormed_twoPages kind?_twoPages hpages none).perm hjobs
  obtain ⟨fs'', hrun, -⟩ := run_of_feasible wellFormed_twoPages hsep feasible_twoPages .standard
  obtain ⟨fs', houtcome, horders, -⟩ := hall _ _ hjobs (congrArg Prod.fst hrun)
  exact ⟨inputs, fs', hpages, hperm, houtcome, horders⟩

end Wireframe.Batch
