import Mathlib.Data.List.Nodup
import Wireframe.Proofs.Batch.Sources

/-!
# Drawings that go to one place

A batch is refused if two of its drawings go to the same path, and then nothing is written
(`Batch.exists_duplicateOutput_iff`). Paths are the same if they have the same components. The same
paths lead to the same place, but so do other ones: `page.svg` and `./page.svg` do. Such a batch is
not refused, and one drawing goes over another (`Batch.not_refusesClashes_point`).

So a batch in which two drawings go to one place is refused exactly if two of them go to the same
path (`Batch.refusesClashes_iff`). That is always so if the paths of the drawings start alike and
do not go up (`Batch.refusesClashes_of_plain`).
-/

namespace Wireframe.Batch

variable {fs : FileSystem} {inputs : List Path} {root : Path} {outDir : Option Path}
  {theme : Theme Float}

/-- The paths that the drawings of some pages go to, in the order of the pages. -/
def outputs (inputs : List Path) (root : Path) (outDir : Option Path) : List Path :=
  inputs.map (outputPath · root outDir)

/-- Whether a batch in which two drawings go to one place is refused and leaves everything as it
was. -/
def RefusesClashes (fs : FileSystem) (inputs : List Path) (root : Path) (outDir : Option Path) :
    Prop :=
  ¬ ((outputs inputs root outDir).map fs.place).Nodup → ∀ theme, ∃ output input,
    drawAll theme fs inputs root outDir = (.error (.duplicateOutput output input), fs)

/-! ### Jobs that are refused -/

/-- There is no duplicate among jobs whose drawings go to paths that differ from each other and
from the earlier ones. -/
theorem duplicate?_eq_none_iff {earlier : List Path} {jobs : List Job} :
    duplicate? earlier jobs = none ↔ (jobs.map (·.output.components)).Nodup ∧
      ∀ job ∈ jobs, ∀ path ∈ earlier, job.output.components ≠ path.components := by
  -- each job adds its path to the earlier ones, so these vary in the induction
  induction jobs generalizing earlier with
  | nil => simp [duplicate?]
  | cons job rest ih =>
    have hany : earlier.any (Path.same job.output) = true ↔
        ∃ path ∈ earlier, job.output.components = path.components := by
      simp [Path.same]
    rw [duplicate?, List.map_cons, List.nodup_cons, List.mem_map, List.forall_mem_cons]
    by_cases hrepeats : ∃ path ∈ earlier, job.output.components = path.components
    · rw [if_pos (hany.mpr hrepeats)]
      obtain ⟨path, hpath, hsame⟩ := hrepeats
      exact iff_of_false (Option.some_ne_none _) fun h => h.2.1 path hpath hsame
    · rw [if_neg (mt hany.mp hrepeats), ih]
      push Not at hrepeats
      simp only [List.forall_mem_cons, forall_and]
      constructor
      · rintro ⟨hrest, hjob, hearlier⟩
        exact ⟨⟨fun ⟨job', hjob', hsame⟩ => hjob job' hjob' hsame, hrest⟩, hrepeats, hearlier⟩
      · rintro ⟨⟨hjob, hrest⟩, -, hearlier⟩
        exact ⟨hrest, fun job' hjob' hsame => hjob ⟨job', hjob', hsame⟩, hearlier⟩

/-- No clash is found exactly if the outputs differ as paths. -/
theorem duplicate?_jobs_eq_none_iff : duplicate? [] (jobs inputs root outDir) = none ↔
    ((outputs inputs root outDir).map Path.components).Nodup := by
  have hmap : (jobs inputs root outDir).map (·.output.components) =
      (outputs inputs root outDir).map Path.components := by
    rw [jobs, outputs, List.map_map, List.map_map]
    rfl
  rw [duplicate?_eq_none_iff, hmap]
  exact and_iff_left fun _ _ _ hpath => absurd hpath List.not_mem_nil

/-! ### Runs are never refused -/

/-- Making directories never reports a clash. -/
theorem prepare_ne_duplicateOutput (fs : FileSystem) (path output input : Path) :
    (prepare fs path).1 ≠ .error (.duplicateOutput output input) := by
  cases hparent : path.parent? with
  | none =>
    rw [prepare, makeParent, hparent]
    simp [FileSystem.pure_apply]
  | some parent =>
    rw [prepare_of_parent hparent]
    split
    · simp
    · cases (fs.makeDirectories parent).1 <;> simp [Except.mapError]

/-- Drawing a page never reports a clash. -/
theorem draw_ne_duplicateOutput (theme : Theme Float) (fs : FileSystem) (job : Job)
    (output input : Path) : (draw theme fs job).1 ≠ .error (.duplicateOutput output input) := by
  have hprepare := prepare_ne_duplicateOutput fs job.output output input
  rw [draw_eq]
  cases (fs.readBytes job.input).bind Disk.textOfBytes with
  | error fault => simp
  | ok text =>
    dsimp only
    generalize prepare fs job.output = result at hprepare ⊢
    obtain ⟨e | _, fs'⟩ := result <;> dsimp only
    · exact fun h => hprepare (congrArg Except.error (Except.error.inj h))
    · generalize fs'.writeBytes job.output (Svg.ofText theme text).toUTF8 = result
      obtain ⟨fault | _, fs''⟩ := result <;> simp

/-- A run never reports a clash: it is looked for before. -/
theorem run_ne_duplicateOutput (theme : Theme Float) (fs : FileSystem) (jobs : List Job)
    (output input : Path) : (run theme fs jobs).1 ≠ .error (.duplicateOutput output input) := by
  induction jobs generalizing fs with
  | nil => simp [run_nil]
  | cons job rest ih =>
    have hdraw := draw_ne_duplicateOutput theme fs job output input
    rw [run_cons]
    generalize draw theme fs job = result at hdraw ⊢
    obtain ⟨e | bytes, fs'⟩ := result <;> dsimp only
    · exact fun h => hdraw (congrArg Except.error (Except.error.inj h))
    · have hrest := ih fs'
      generalize (run theme fs' rest).1 = others at hrest ⊢
      cases others with
      | error e => exact fun h => hrest (congrArg Except.error (Except.error.inj h))
      | ok others => simp [Except.map]

theorem drawAll_ne_duplicateOutput
    (h : ((outputs inputs root outDir).map Path.components).Nodup) (theme : Theme Float)
    (fs : FileSystem) (output input : Path) :
    (drawAll theme fs inputs root outDir).1 ≠ .error (.duplicateOutput output input) := by
  rw [drawAll_eq, duplicate?_jobs_eq_none_iff.mpr h]
  exact run_ne_duplicateOutput theme fs _ output input

/-- A batch is refused exactly if two of its drawings go to the same path, and then nothing has
changed. -/
theorem exists_duplicateOutput_iff (theme : Theme Float) (fs : FileSystem) :
    (∃ output input,
      drawAll theme fs inputs root outDir = (.error (.duplicateOutput output input), fs)) ↔
      ¬ ((outputs inputs root outDir).map Path.components).Nodup := by
  constructor
  · rintro ⟨output, input, hrefused⟩ hcomponents
    exact drawAll_ne_duplicateOutput hcomponents theme fs output input (congrArg Prod.fst hrefused)
  · intro hcomponents
    rw [← duplicate?_jobs_eq_none_iff, ← ne_eq, Option.ne_none_iff_exists'] at hcomponents
    obtain ⟨job, hjob⟩ := hcomponents
    exact ⟨job.output, job.input, by rw [drawAll_eq, hjob]⟩

/-! ### Places and paths -/

/-- Drawings that go to the same path go to the same place. -/
theorem nodup_components_of_nodup_place {paths : List Path}
    (h : (paths.map fs.place).Nodup) : (paths.map Path.components).Nodup := by
  rw [List.Nodup, List.pairwise_map] at h ⊢
  exact h.imp fun hne hsame => hne (FileSystem.place_eq_of_components fs hsame)

theorem refusesClashes_of_nodup (h : ((outputs inputs root outDir).map Path.components).Nodup →
    ((outputs inputs root outDir).map fs.place).Nodup) : RefusesClashes fs inputs root outDir :=
  fun hclash theme => (exists_duplicateOutput_iff theme fs).mpr (mt h hclash)

/-- Clashes are refused if the paths of the drawings start alike and do not go up. -/
theorem refusesClashes_of_plain
    (hstart : ∀ output ∈ outputs inputs root outDir, ∀ output' ∈ outputs inputs root outDir,
      output.split.1 = output'.split.1)
    (hdown : ∀ output ∈ outputs inputs root outDir, ∀ p ∈ output.split.2, p ≠ "..") :
    RefusesClashes fs inputs root outDir := by
  refine refusesClashes_of_nodup fun hcomponents => ?_
  rw [List.Nodup, List.pairwise_map] at hcomponents ⊢
  refine hcomponents.imp_of_mem fun houtput houtput' hne hplace => hne ?_
  exact FileSystem.components_eq_of_place (hstart _ houtput _ houtput') (hdown _ houtput)
    (hdown _ houtput') hplace

/-- **When clashes are refused**: a batch in which two drawings go to one place is refused, with
everything left as it was, exactly if two drawings go to one place only where two of them go to
the same path. -/
theorem refusesClashes_iff (fs : FileSystem) (inputs : List Path) (root : Path)
    (outDir : Option Path) : RefusesClashes fs inputs root outDir ↔
      (((outputs inputs root outDir).map fs.place).Nodup ↔
        ((outputs inputs root outDir).map Path.components).Nodup) := by
  refine ⟨fun hrefuses => ⟨nodup_components_of_nodup_place, fun hcomponents => ?_⟩,
    fun hiff => refusesClashes_of_nodup hiff.mpr⟩
  -- a clash would be refused, but only drawings that go to the same path are
  by_contra hclash
  exact (exists_duplicateOutput_iff .standard fs).mp (hrefuses hclash .standard) hcomponents

/-- A page that is given twice, once with a point in front, is drawn twice to one place. -/
theorem not_refusesClashes_point : (onePage "page.txt" "# Home").WellFormed ∧
    ¬ RefusesClashes (onePage "page.txt" "# Home") [⟨"page.txt"⟩, ⟨"./page.txt"⟩] ⟨"."⟩ none := by
  refine ⟨wellFormed_onePage (by decide) _, fun hrefuses => ?_⟩
  have hclash : ¬ ((outputs [⟨"page.txt"⟩, ⟨"./page.txt"⟩] ⟨"."⟩ none).map
      (onePage "page.txt" "# Home").place).Nodup := by decide
  have hcomponents : ((outputs [⟨"page.txt"⟩, ⟨"./page.txt"⟩] ⟨"."⟩ none).map
      Path.components).Nodup := by decide
  exact (exists_duplicateOutput_iff .standard _).mp (hrefuses hclash .standard) hcomponents

end Wireframe.Batch
