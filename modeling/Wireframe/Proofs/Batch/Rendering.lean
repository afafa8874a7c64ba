import Wireframe.Batch
import Wireframe.Proofs.FileSystem.Directories
import Wireframe.Proofs.Store.Files

/-!
# Drawing pages to files

What one job of a batch does to a file system. It puts the drawing at the place that its output
leads to and makes the directories on the way there that are missing (`Batch.Drawn`); if it fails,
only some of these directories have been made (`Batch.draw_cases`). It goes well where the page is a
text, no file is on the way and no directory is where the drawing goes (`Batch.draw_of_ready`).
-/

namespace Wireframe.Batch

open FileSystem (bind_apply pure_apply refusal? refusal?_eq_none_iff)

variable {fs fs' : FileSystem} {output : Path} {a : Path.Anchor} {ps : List String}
  {name : String} {theme : Theme Float} {job : Job}

/-! ### The directory for a drawing -/

/-- The directory that a path lies in is made. -/
def prepare (fs : FileSystem) (output : Path) : Except BatchError Unit × FileSystem :=
  makeParent (m := StateM FileSystem) output fs

/-- An output in another directory needs this directory made. -/
theorem prepare_of_parent {parent : Path} (h : output.parent? = some parent) :
    prepare fs output = if parent.text = "" then (.ok (), fs) else
      ((fs.makeDirectories parent).1.mapError (.write parent), (fs.makeDirectories parent).2) := by
  rw [prepare, makeParent, h]
  by_cases hempty : parent.text = ""
  · simp [Option.filter, Path.isEmpty, hempty, pure_apply]
  · simp [Option.filter, Path.isEmpty, hempty, bind_apply, pure_apply,
      FileSystem.makeDirectories_apply]

section Ending

variable (h : output.Ends ps name [])

include h

theorem parent?_of_ends :
    output.parent? = some (Path.build output.split.1 (Path.trimPieces ps)) :=
  Path.parent?_eq (by rw [← h.pieces]) h.isName.not_idle rfl

theorem mem_wayTo_of_ends {place : Location} :
    place ∈ fs.through (Path.build output.split.1 (Path.trimPieces ps)) ↔
      place ∈ fs.wayTo output := by
  rw [FileSystem.mem_through_parent (by rw [← h.pieces]) h.isName.not_idle, FileSystem.wayTo,
    h.pieces]

/-- The directories that are made for a drawing are on the way to it. -/
theorem prepare_grows (hfs : fs.WellFormed) :
    fs.Grows (fs.wayTo output) (prepare fs output).2 ∧ (prepare fs output).2.WellFormed := by
  rw [prepare_of_parent (parent?_of_ends h)]
  split
  · exact ⟨.refl fs _, hfs⟩
  · obtain ⟨hgrows, hwell⟩ := FileSystem.makeDirectories_grows hfs
      (Path.build output.split.1 (Path.trimPieces ps))
    have hsub : fs.through (Path.build output.split.1 (Path.trimPieces ps)) ⊆ fs.wayTo output :=
      fun place hplace => (mem_wayTo_of_ends h).mp hplace
    dsimp only
    exact ⟨hgrows.mono hsub, hwell⟩

/-- A path without a directory in front of its name starts in one that is there. -/
theorem directory_of_parent_empty (hfs : fs.WellFormed)
    (hempty : (Path.build output.split.1 (Path.trimPieces ps)).text = "") {place : Location}
    (hplace : place ∈ fs.wayTo output) : fs.entry? place = some .directory := by
  rw [← mem_wayTo_of_ends h] at hplace
  generalize Path.build output.split.1 (Path.trimPieces ps) = parent at hempty hplace
  obtain rfl : parent = ⟨""⟩ := by cases parent; simp_all
  have hthrough : fs.through ⟨""⟩ = [fs.workingDirectory, fs.workingDirectory] := by
    rw [FileSystem.through, FileSystem.wayTo, FileSystem.place, FileSystem.origin, Path.isAbsolute,
      Path.split_empty]
    rfl
  rw [hthrough] at hplace
  simp only [List.mem_cons, List.not_mem_nil, or_false, or_self] at hplace
  rw [hplace]
  exact hfs.working

/-- Once the directory for a drawing is made, there are directories on the way. -/
theorem directory_of_prepare (hfs : fs.WellFormed) (hok : (prepare fs output).1 = .ok ()) :
    ∀ place ∈ fs.wayTo output, FileSystem.entry? (prepare fs output).2 place = some .directory := by
  intro place hplace
  rw [prepare_of_parent (parent?_of_ends h)] at hok ⊢
  split at hok <;> rename_i hempty
  · rw [if_pos hempty]
    exact directory_of_parent_empty h hfs hempty hplace
  · rw [if_neg hempty]
    have hmade :
      (fs.makeDirectories (Path.build output.split.1 (Path.trimPieces ps))).1 = .ok () := by
      cases hmake : (fs.makeDirectories (Path.build output.split.1 (Path.trimPieces ps))).1 with
      | ok => rfl
      | error fault =>
        rw [hmake] at hok
        cases hok
    have hkind := FileSystem.kind?_of_makeDirectories hempty hmade
    obtain ⟨hgrows, -⟩ := FileSystem.makeDirectories_grows hfs
      (Path.build output.split.1 (Path.trimPieces ps))
    dsimp only
    refine (FileSystem.kind?_eq_directory_iff_through.mp hkind).2 place ?_
    rw [hgrows.through_eq]
    exact (mem_wayTo_of_ends h).mpr hplace

/-- If only slashes and points are in front of the name, the drawing goes to where its path
starts. -/
theorem kind?_parent_of_trimPieces_nil (hfs : fs.WellFormed) (hnil : Path.trimPieces ps = [])
    (hempty : (Path.build output.split.1 (Path.trimPieces ps)).text ≠ "") :
    fs.kind? (Path.build output.split.1 (Path.trimPieces ps)) = some .directory := by
  obtain ⟨idles, hidles, hps, -⟩ := Path.exists_trimPieces_append ps
  rw [hnil, List.nil_append] at hps
  rw [← hps] at hidles
  have hclean : (Path.build output.split.1 (Path.trimPieces ps)).Clean := by
    rw [hnil]
    cases output.split.1 <;> decide
  refine FileSystem.kind?_eq_directory_iff_through.mpr
    ⟨refusal?_eq_none_iff.mpr ⟨hclean, hempty⟩, fun place hplace => ?_⟩
  rw [mem_wayTo_of_ends h, FileSystem.wayTo, h.pieces, FileSystem.way_concat,
    FileSystem.reach_idle hidles, List.mem_append, List.mem_singleton] at hplace
  rw [hplace.elim (FileSystem.eq_of_mem_way_idle hidles) id]
  exact hfs.directory_origin output

/-- If no file is on the way, the directory for a drawing can be made. -/
theorem makeDirectories_of_clear_way (hfs : fs.WellFormed) (hclean : output.Clean)
    (hclear : fs.Clear (fs.wayTo output))
    (hempty : (Path.build output.split.1 (Path.trimPieces ps)).text ≠ "") :
    (fs.makeDirectories (Path.build output.split.1 (Path.trimPieces ps))).1 = .ok () := by
  have hsplit : output.split = (output.split.1, ps ++ name :: []) := by rw [← h.pieces]
  have hidle := h.isName.not_idle
  obtain ⟨-, -, -, hnil | ⟨init, last, hinit, hlast⟩⟩ := Path.exists_trimPieces_append ps
  · rw [FileSystem.makeDirectories_of_directory (kind?_parent_of_trimPieces_nil h hfs hnil hempty)]
  · have hparent : (Path.build output.split.1 (Path.trimPieces ps)).split =
        (output.split.1, init ++ [last]) := by
      rw [← hinit]
      refine (Path.split_parent hsplit hidle).resolve_right fun hnil => ?_
      rw [hinit] at hnil
      exact List.concat_ne_nil _ _ hnil.1
    have hrefusal : refusal? output = none :=
      refusal?_eq_none_iff.mpr ⟨hclean, Path.text_ne_of_split hsplit hidle⟩
    exact FileSystem.makeDirectories_of_clear hfs
      (FileSystem.refusal?_parent hrefusal hsplit hparent hlast hinit) hparent hlast rfl
      fun place hplace => hclear place ((mem_wayTo_of_ends h).mp hplace)

/-- Where nothing is in the way, the directory of an output can be made. -/
theorem prepare_of_clear (hfs : fs.WellFormed) (hclean : output.Clean)
    (hclear : fs.Clear (fs.wayTo output)) : (prepare fs output).1 = .ok () := by
  rw [prepare_of_parent (parent?_of_ends h)]
  split
  · rfl
  · next hempty =>
    simp only [makeDirectories_of_clear_way h hfs hclean hclear hempty]
    rfl

end Ending

/-! ### One job -/

/-- One page is drawn to a file. -/
def draw (theme : Theme Float) (fs : FileSystem) (job : Job) : Except BatchError Nat × FileSystem :=
  renderFile (m := StateM FileSystem) theme job.input job.output fs

/-- A drawing in its steps: read the page, make the directory, write the drawing. -/
theorem draw_eq (theme : Theme Float) (fs : FileSystem) (job : Job) : draw theme fs job =
    match (fs.readBytes job.input).bind Disk.textOfBytes with
    | .error fault => (.error (.read job.input fault), fs)
    | .ok text =>
      match prepare fs job.output with
      | (.error e, fs') => (.error e, fs')
      | (.ok (), fs') =>
        match fs'.writeBytes job.output (Svg.ofText theme text).toUTF8 with
        | (.error fault, fs'') => (.error (.write job.output fault), fs'')
        | (.ok (), fs'') => (.ok (Svg.ofText theme text).utf8ByteSize, fs'') := by
  have hpage : (readPage job.input : StateM FileSystem _) fs =
      (((fs.readBytes job.input).bind Disk.textOfBytes).mapError (.read job.input), fs) := rfl
  have hparent (fs : FileSystem) : (makeParent job.output : StateM FileSystem _) fs =
      prepare fs job.output := rfl
  rw [draw, renderFile]
  simp only [bind_apply, hpage]
  match (fs.readBytes job.input).bind Disk.textOfBytes with
  | .error fault => rfl
  | .ok text =>
    simp only [Except.mapError, bind_apply, hparent]
    match prepare fs job.output with
    | (.error e, fs') => rfl
    | (.ok (), fs') =>
      simp only [bind_apply, FileSystem.writeText_apply]
      match fs'.writeBytes job.output (Svg.ofText theme text).toUTF8 with
      | (.error fault, fs'') => rfl
      | (.ok (), fs'') => rfl

/-- What jobs that have been done come to: each drawing at the place for it, the directories on the
way to it, and everything else as it was. -/
structure Drawn (fs : FileSystem) (jobs : List Job) (drawing : Job → String) (fs' : FileSystem) :
    Prop where
  wellFormed : fs'.WellFormed
  workingDirectory : fs'.workingDirectory = fs.workingDirectory
  free : ∀ job ∈ jobs, fs.entry? (fs.place job.output) ≠ some .directory
  file : ∀ job ∈ jobs, fs'.entry? (fs.place job.output) = some (.file (drawing job).toUTF8)
  way : ∀ job ∈ jobs, ∀ place ∈ fs.wayTo job.output, fs'.entry? place = some .directory
  other : ∀ place, (∀ job ∈ jobs, place ≠ fs.place job.output) →
    fs'.entry? place = fs.entry? place ∨ (∃ job ∈ jobs, place ∈ fs.wayTo job.output) ∧
      fs.entry? place = none ∧ fs'.entry? place = some .directory

/-- What it takes for a page to be drawn: no file is on the way to the drawing, and no directory is
or comes to be where it goes. -/
structure Ready (fs : FileSystem) (output : Path) : Prop where
  clean : output.Clean
  clear : fs.Clear (fs.wayTo output)
  free : fs.entry? (fs.place output) ≠ some .directory
  apart : fs.place output ∉ fs.wayTo output

/-- Where directories have come to be on the way to a drawing and none where it goes, it could be
drawn to begin with. -/
theorem Ready.of_grows (hclean : output.Clean) (hgrows : fs.Grows (fs.wayTo output) fs')
    (hway : ∀ place ∈ fs.wayTo output, fs'.entry? place = some .directory)
    (hfree : fs'.entry? (fs'.place output) ≠ some .directory) : Ready fs output := by
  rw [hgrows.place_eq] at hfree
  refine ⟨hclean, ?_, fun hdirectory => hfree (hgrows.entry_of_some hdirectory),
    fun hmem => hfree (hway _ hmem)⟩
  rw [← hgrows.clear_iff]
  intro place hplace bytes hfile
  rw [hway place hplace] at hfile
  cases hfile

section Job

variable {text : String} (h : job.output.Ends ps name []) (hfs : fs.WellFormed)

include h hfs

/-- A page that is a text is drawn if it can be. -/
theorem draw_of_ready (hread : fs.readBytes job.input = .ok text.toUTF8)
    (hready : Ready fs job.output) (drawing : Job → String)
    (hdrawing : drawing job = Svg.ofText theme text) : ∃ fs',
      draw theme fs job = (.ok (drawing job).utf8ByteSize, fs') ∧ Drawn fs [job] drawing fs' := by
  rw [hdrawing]
  -- first the directories are made, then the file is written into the last of them
  have hok := prepare_of_clear h hfs hready.clean hready.clear
  obtain ⟨hgrows, hwell⟩ := prepare_grows h hfs
  have hway := directory_of_prepare h hfs hok
  have hprepare : prepare fs job.output = (.ok (), (prepare fs job.output).2) := by rw [← hok]
  generalize (prepare fs job.output).2 = fs' at hgrows hwell hway hprepare
  have hrefusal : refusal? job.output = none :=
    refusal?_eq_none_iff.mpr
      ⟨hready.clean, Path.text_ne_of_split (by rw [← h.pieces]) h.isName.not_idle⟩
  have hfree : fs'.entry? (fs'.place job.output) ≠ some .directory := by
    rw [hgrows.place_eq, hgrows.entry_of_not_mem hready.apart]
    exact hready.free
  have hwrite := FileSystem.writeBytes_of_way hrefusal h (by rwa [hgrows.wayTo_eq]) hfree
    (Svg.ofText theme text).toUTF8
  have hwell' := hwell.writeBytes job.output (Svg.ofText theme text).toUTF8
  rw [hwrite, hgrows.place_eq] at hwell'
  rw [hgrows.place_eq] at hwrite
  have hput := FileSystem.entry?_put (FileSystem.place_ne_nil fs h) fs'
    (.file (Svg.ofText theme text).toUTF8)
  refine ⟨_, ?_, hwell', hgrows.workingDirectory, ?_, ?_, ?_, ?_⟩
  · rw [draw_eq, hread]
    simp only [Except.bind, Disk.textOfBytes_toUTF8, hprepare, hwrite]
  · simpa using hready.free
  · simp only [List.forall_mem_singleton, hdrawing]
    exact (hput _).trans (if_pos rfl)
  · simp only [List.forall_mem_singleton]
    intro place hplace
    refine (hput place).trans ((if_neg ?_).trans (hway place hplace))
    rintro rfl
    exact hready.apart hplace
  · simp only [List.forall_mem_singleton]
    intro place hplace
    rw [hput, if_neg hplace]
    exact (hgrows.entry place).imp_right
      (And.imp_left fun hmem => ⟨job, List.mem_singleton.mpr rfl, hmem⟩)

/-- A page can be drawn, or only directories on the way to the drawing are made. -/
theorem draw_cases (theme : Theme Float) :
    (∃ text : String, fs.readBytes job.input = .ok text.toUTF8 ∧ Ready fs job.output) ∨
      ∃ e fs', draw theme fs job = (.error e, fs') ∧ fs.Grows (fs.wayTo job.output) fs' ∧
        fs'.WellFormed := by
  obtain ⟨hgrows, hwell⟩ := prepare_grows h hfs
  have hway := directory_of_prepare h hfs
  rw [draw_eq]
  match hbytes : fs.readBytes job.input with
  | .error fault => exact .inr ⟨_, fs, rfl, .refl fs _, hfs⟩
  | .ok bytes =>
    simp only [Except.bind]
    match htext : Disk.textOfBytes bytes with
    | .error fault => exact .inr ⟨_, fs, rfl, .refl fs _, hfs⟩
    | .ok text =>
      rw [Disk.textOfBytes_eq_ok_iff] at htext
      subst htext
      match hprepare : prepare fs job.output with
      | (.error e, fs') =>
        rw [hprepare] at hgrows hwell
        exact .inr ⟨e, fs', rfl, hgrows, hwell⟩
      | (.ok (), fs') =>
        rw [hprepare] at hgrows hwell hway
        dsimp only
        rcases fs'.writeBytes_cases job.output (Svg.ofText theme text).toUTF8 with
          ⟨fault, heq⟩ | ⟨heq, hrefusal, -, -, hfree⟩
        · rw [heq]
          exact .inr ⟨_, fs', rfl, hgrows, hwell⟩
        · exact .inl ⟨text, rfl,
            .of_grows (refusal?_eq_none_iff.mp hrefusal).1 hgrows (hway rfl) hfree⟩

end Job

/-! ### What jobs leave as it was -/

section Others

variable {jobs jobs' : List Job} {drawing : Job → String} {path : Path} {bytes : ByteArray}

theorem Drawn.place_eq (h : Drawn fs jobs drawing fs') (path : Path) :
    fs'.place path = fs.place path := by
  rw [FileSystem.place, FileSystem.place, FileSystem.origin, FileSystem.origin, h.workingDirectory]

theorem Drawn.wayTo_eq (h : Drawn fs jobs drawing fs') (path : Path) :
    fs'.wayTo path = fs.wayTo path := by
  rw [FileSystem.wayTo, FileSystem.wayTo, FileSystem.origin, FileSystem.origin, h.workingDirectory]

/-- What was a directory is one still. -/
theorem Drawn.directory (h : Drawn fs jobs drawing fs') {place : Location}
    (hplace : fs.entry? place = some .directory) : fs'.entry? place = some .directory := by
  have hne : ∀ job ∈ jobs, place ≠ fs.place job.output := by
    rintro job hjob rfl
    exact h.free job hjob hplace
  rcases h.other place hne with hsame | ⟨-, -, hmade⟩
  · rw [hsame, hplace]
  · exact hmade

/-- A file where no drawing goes is as it was. -/
theorem Drawn.file_of_ne (h : Drawn fs jobs drawing fs') {place : Location}
    (hplace : fs.entry? place = some (.file bytes))
    (hne : ∀ job ∈ jobs, place ≠ fs.place job.output) :
    fs'.entry? place = some (.file bytes) := by
  rcases h.other place hne with hsame | ⟨-, hnone, -⟩
  · rw [hsame, hplace]
  · rw [hnone] at hplace
    cases hplace

/-- A file that is no output reads as before. -/
theorem Drawn.readBytes_of_ne (h : Drawn fs jobs drawing fs')
    (hread : fs.readBytes path = .ok bytes)
    (hne : ∀ job ∈ jobs, fs.place path ≠ fs.place job.output) :
    fs'.readBytes path = .ok bytes := by
  obtain ⟨hrefusal, hway, hentry⟩ := FileSystem.readBytes_eq_ok_iff.mp hread
  rw [FileSystem.readBytes_eq_ok_iff, h.wayTo_eq, h.place_eq]
  exact ⟨hrefusal, fun place hplace => h.directory (hway place hplace), h.file_of_ne hentry hne⟩

/-- One batch after another comes to both, if no drawing goes where another went. -/
theorem Drawn.append {fs'' : FileSystem} (h : Drawn fs jobs drawing fs')
    (h' : Drawn fs' jobs' drawing fs'')
    (hne : ∀ job ∈ jobs, ∀ job' ∈ jobs', fs.place job.output ≠ fs.place job'.output) :
    Drawn fs (jobs ++ jobs') drawing fs'' := by
  have hplace := h.place_eq
  refine ⟨h'.wellFormed, h'.workingDirectory.trans h.workingDirectory, ?_, ?_, ?_, ?_⟩
  · simp only [List.forall_mem_append]
    refine ⟨h.free, fun job hjob hdirectory => ?_⟩
    refine h'.free job hjob ?_
    rw [hplace]
    exact h.directory hdirectory
  · simp only [List.forall_mem_append]
    refine ⟨fun job hjob => h'.file_of_ne (h.file job hjob) fun job' hjob' => ?_, ?_⟩
    · rw [hplace]
      exact hne job hjob job' hjob'
    · simpa only [hplace] using h'.file
  · simp only [List.forall_mem_append]
    refine ⟨fun job hjob place hmem => h'.directory (h.way job hjob place hmem), ?_⟩
    simpa only [h.wayTo_eq] using h'.way
  · intro place hnot
    simp only [List.forall_mem_append] at hnot
    have hfirst := h.other place hnot.1
    have hsecond := h'.other place (by simpa only [hplace] using hnot.2)
    simp only [h.wayTo_eq] at hsecond
    simp only [List.mem_append, or_and_right, exists_or]
    -- a place is as before, or one of the two batches made a directory there
    rcases hsecond with hsame' | ⟨hmem', hnone', hmade'⟩ <;>
      rcases hfirst with hsame | ⟨hmem, hnone, hmade⟩
    · exact .inl (hsame'.trans hsame)
    · exact .inr (.inl ⟨hmem, hnone, hsame'.trans hmade⟩)
    · exact .inr (.inr ⟨hmem', hsame ▸ hnone', hmade'⟩)
    · exact .inr (.inl ⟨hmem, hnone, hmade'⟩)

end Others

/-! ### Batches -/

/-- Jobs are done in order, up to the first that fails. -/
def run (theme : Theme Float) (fs : FileSystem) (jobs : List Job) :
    Except BatchError (List Rendered) × FileSystem :=
  runJobs (m := StateM FileSystem) theme jobs fs

theorem run_nil (theme : Theme Float) (fs : FileSystem) : run theme fs [] = (.ok [], fs) := rfl

theorem run_cons (theme : Theme Float) (fs : FileSystem) (job : Job) (rest : List Job) :
    run theme fs (job :: rest) = match draw theme fs job with
      | (.error e, fs') => (.error e, fs')
      | (.ok bytes, fs') =>
        ((run theme fs' rest).1.map fun others => ⟨job.input, job.output, bytes⟩ :: others,
          (run theme fs' rest).2) := by
  have hdraw : (renderFile theme job.input job.output : StateM FileSystem _) fs =
      draw theme fs job := rfl
  rw [run, runJobs, bind_apply, hdraw]
  match draw theme fs job with
  | (.error e, fs') => rfl
  | (.ok bytes, fs') => rfl

/-- Whatever comes of a batch, directories stay, and so do files where no drawing goes. -/
structure Keeps (fs : FileSystem) (jobs : List Job) (fs' : FileSystem) : Prop where
  wellFormed : fs'.WellFormed
  workingDirectory : fs'.workingDirectory = fs.workingDirectory
  directory : ∀ place, fs.entry? place = some .directory → fs'.entry? place = some .directory
  file : ∀ place bytes, fs.entry? place = some (.file bytes) →
    (∀ job ∈ jobs, place ≠ fs.place job.output) → fs'.entry? place = some (.file bytes)

theorem Drawn.keeps {drawing : Job → String} (h : Drawn fs [job] drawing fs') :
    Keeps fs [job] fs' :=
  ⟨h.wellFormed, h.workingDirectory, fun _ => h.directory, fun _ _ => h.file_of_ne⟩

/-- What each of two steps keeps, both keep. -/
theorem Keeps.cons {jobs : List Job} {fs'' : FileSystem} (h : Keeps fs [job] fs')
    (h' : Keeps fs' jobs fs'') : Keeps fs (job :: jobs) fs'' := by
  have hplace (path : Path) : fs'.place path = fs.place path := by
    rw [FileSystem.place, FileSystem.place, FileSystem.origin, FileSystem.origin,
      h.workingDirectory]
  refine ⟨h'.wellFormed, h'.workingDirectory.trans h.workingDirectory,
    fun place hdirectory => h'.directory place (h.directory place hdirectory),
    fun place bytes hfile hne => ?_⟩
  obtain ⟨hjob, hjobs⟩ := List.forall_mem_cons.mp hne
  refine h'.file place bytes (h.file place bytes hfile (by simpa using hjob)) ?_
  simpa only [hplace] using hjobs

/-- A file that no job writes reads as before. -/
theorem Keeps.readBytes {jobs : List Job} (h : Keeps fs jobs fs') {path : Path} {bytes : ByteArray}
    (hread : fs.readBytes path = .ok bytes)
    (hne : ∀ job ∈ jobs, fs.place path ≠ fs.place job.output) : fs'.readBytes path = .ok bytes := by
  obtain ⟨hrefusal, hway, hentry⟩ := FileSystem.readBytes_eq_ok_iff.mp hread
  rw [FileSystem.readBytes_eq_ok_iff, FileSystem.wayTo, FileSystem.place, FileSystem.origin,
    h.workingDirectory]
  exact ⟨hrefusal, fun place hplace => h.directory place (hway place hplace),
    h.file _ bytes hentry hne⟩

/-- Whatever comes of a batch, nothing is lost but files where drawings go. -/
theorem run_keeps (theme : Theme Float) (hfs : fs.WellFormed) {jobs : List Job}
    (hends : ∀ job ∈ jobs, ∃ ps name, job.output.Ends ps name []) :
    Keeps fs jobs (run theme fs jobs).2 := by
  induction jobs generalizing fs with
  | nil => exact ⟨hfs, rfl, fun _ => id, fun _ _ h _ => h⟩
  | cons job rest ih =>
    obtain ⟨⟨ps, name, hjob⟩, hrest⟩ := List.forall_mem_cons.mp hends
    rw [run_cons]
    rcases draw_cases hjob hfs theme with
      ⟨text, hread, hready⟩ | ⟨e, fs', hdraw, hgrows, hwell⟩
    · obtain ⟨fs', hdraw, hdrawn⟩ :=
        draw_of_ready hjob hfs hread hready (fun _ => Svg.ofText theme text) rfl
      rw [hdraw]
      exact hdrawn.keeps.cons (ih hdrawn.wellFormed hrest)
    · rw [hdraw]
      exact ⟨hwell, hgrows.workingDirectory, fun _ => hgrows.entry_of_some,
        fun _ _ h _ => hgrows.entry_of_some h⟩

end Wireframe.Batch
