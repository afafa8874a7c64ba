import Mathlib.Data.List.Nodup
import Wireframe.Proofs.FileSystem.Listing
import Wireframe.Proofs.Batch.Rendering

/-!
# Pages and where their drawings go

The pages below a directory are found by the names that lead to them, and their drawings go to the
same names with another extension, below the same directory or another one
(`Batch.split_outputPath`). So different pages have their drawings at different places
(`Batch.Page.eq_of_place_output`), and no drawing goes to a place where a page is
(`Batch.Page.place_output_ne_place_input`).
-/

namespace Wireframe.Batch

open Wireframe.Path (IsName)

variable {fs : FileSystem} {root : Path} {outDir : Option Path} {ns : List String} {name : String}

/-! ### Pages -/

/-- The pages at a path, as they are found in a file system. -/
def pagesAt (fs : FileSystem) (root : Path) : Except BatchError (List Path) :=
  (discover (m := StateM FileSystem) root fs).1

theorem pagesAt_of_file (h : fs.kind? root = some .file) : pagesAt fs root = .ok [root] := by
  rw [pagesAt, discover, FileSystem.bind_apply, FileSystem.kind?_apply, h]
  rfl

theorem pagesAt_of_directory (h : fs.kind? root = some .directory) :
    pagesAt fs root =
      .ok (((fs.filesBelow root).filter isPage).map fun ns => root.join ⟨Path.joined ns⟩) := by
  rw [pagesAt, discover, FileSystem.bind_apply, FileSystem.kind?_apply, h]
  rfl

theorem pagesAt_of_missing (h : fs.kind? root = none) :
    pagesAt fs root = .error (.notFound root) := by
  rw [pagesAt, discover, FileSystem.bind_apply, FileSystem.kind?_apply, h]
  rfl

/-- The names that lead to a page end in one with the extension of pages. -/
theorem isPage_iff : isPage ns = true ↔ ∃ init stem, ns = init ++ [stem ++ "." ++ pageExtension] ∧
    stem ≠ "" := by
  rcases List.eq_nil_or_concat ns with rfl | ⟨init, last, rfl⟩
  · simp [isPage]
  · rw [List.concat_eq_append, isPage, List.getLast?_concat, Option.bind_some, beq_iff_eq]
    constructor
    · intro h
      obtain ⟨stem, ext, hsplit⟩ : ∃ stem ext, Path.splitName last = (stem, ext) := ⟨_, _, rfl⟩
      rw [hsplit] at h
      subst h
      obtain ⟨rfl, hstem, -⟩ := Path.splitName_eq_iff.mp hsplit
      exact ⟨init, stem, rfl, hstem⟩
    · rintro ⟨init', stem, heq, hstem⟩
      obtain ⟨rfl, rfl⟩ := List.append_singleton_inj.mp heq
      rw [Path.splitName_append hstem (by decide)]

/-! ### Drawings -/

/-- The directory that drawings go below. -/
def base (root : Path) (outDir : Option Path) : Path := outDir.getD root

/-- The drawing of a page below a directory goes to the same names with another extension. -/
theorem split_outputPath (hroot : root.text ≠ "") {init : List String}
    (h : ∀ n ∈ init ++ [name], IsName n) (outDir : Option Path) :
    (outputPath (root.join ⟨Path.joined (init ++ [name])⟩) root outDir).split =
      ((base root outDir).split.1,
        (base root outDir).openPieces ++ init ++ [Path.rename name drawingExtension]) := by
  have hname : IsName name := h name (by simp)
  have hsplit (dir : Path) : (dir.join ⟨Path.joined (init ++ [name])⟩).split =
      (dir.split.1, dir.openPieces ++ init ++ [name]) := by
    rw [Path.split_join dir (List.concat_ne_nil _ _) h, List.append_assoc]
  cases outDir with
  | none => exact Path.split_withExtension (hsplit root) hname (by decide)
  | some dir =>
    have hempty : (Path.mk (Path.joined (init ++ [name]))).isEmpty = false := by
      have hjoined := Path.split_joined (List.concat_ne_nil name init) h
      rw [Path.isEmpty, beq_eq_false_iff_ne]
      exact Path.text_ne_of_split hjoined hname.not_idle
    rw [outputPath, Path.relativeTo?_join hroot (List.concat_ne_nil _ _) h]
    simp only [Option.filter_some, hempty, Bool.not_false, if_true, Option.some_or,
      Option.getD_some]
    exact Path.split_withExtension (hsplit dir) hname (by decide)

/-- The drawing of a single page goes under its name with another extension. -/
theorem split_outputPath_self {ps : List String} (h : root.Ends ps name [])
    (outDir : Option Path) : (outputPath root root outDir).split = match outDir with
      | none => (root.split.1, ps ++ [Path.rename name drawingExtension])
      | some dir => (dir.split.1, dir.openPieces ++ [Path.rename name drawingExtension]) := by
  have hsplit : root.split = (root.split.1, ps ++ [name]) := by rw [← h.pieces]
  cases outDir with
  | none => exact Path.split_withExtension hsplit h.isName (by decide)
  | some dir =>
    have hroot := Path.text_ne_of_split hsplit h.isName.not_idle
    have hdir : (dir.join ⟨name⟩).split = (dir.split.1, dir.openPieces ++ [name]) := by
      rw [← Path.joined_singleton name]
      exact Path.split_join dir (List.cons_ne_nil _ _) (by simpa using h.isName)
    rw [outputPath, Path.relativeTo?_self hroot]
    simp only [Option.filter_some, Path.isEmpty, Path.fileName?_of_split hsplit h.isName]
    exact Path.split_withExtension hdir h.isName (by decide)

/-- The output of a single page ends in a name. -/
theorem ends_outputPath_self {ps : List String} (h : root.Ends ps name []) (outDir : Option Path) :
    ∃ ps' name', (outputPath root root outDir).Ends ps' name' [] := by
  have hname := h.isName.rename (by decide : IsName drawingExtension)
  have hsplit := split_outputPath_self h outDir
  cases outDir with
  | none => exact ⟨_, _, by rw [hsplit], hname, rfl⟩
  | some dir => exact ⟨_, _, by rw [hsplit], hname, rfl⟩

/-! ### Pages below a directory -/

/-- The file name of a page. -/
def pageName (stem : String) : String := stem ++ "." ++ pageExtension

/-- The file name of the drawing of a page. -/
def drawingName (stem : String) : String := stem ++ "." ++ drawingExtension

theorem rename_pageName {stem : String} (h : stem ≠ "") :
    Path.rename (pageName stem) drawingExtension = drawingName stem := by
  rw [Path.rename, pageName, Path.splitName_append h (by decide), drawingName]

theorem splitName_pageName {stem : String} (h : stem ≠ "") :
    Path.splitName (pageName stem) = (stem, some pageExtension) :=
  Path.splitName_append h (by decide)

theorem splitName_drawingName {stem : String} (h : stem ≠ "") :
    Path.splitName (drawingName stem) = (stem, some drawingExtension) :=
  Path.splitName_append h (by decide)

/-- A page below a directory: the names that lead to it, and that it is there. -/
structure Page (fs : FileSystem) (root input : Path) (above : List String) (stem : String) :
    Prop where
  isName : ∀ n ∈ above ++ [pageName stem], IsName n
  stem_ne : stem ≠ ""
  input_eq : input = root.join ⟨Path.joined (above ++ [pageName stem])⟩
  readable : ∃ bytes, fs.readBytes input = .ok bytes

namespace Page

variable {input input' : Path} {above above' : List String} {stem stem' : String}

/-- The path of a page is that of the root, the directories below it and its name. -/
theorem split_input (h : Page fs root input above stem) :
    input.split = (root.split.1, root.openPieces ++ (above ++ [pageName stem])) := by
  rw [h.input_eq]
  exact Path.split_join root (List.concat_ne_nil _ _) h.isName

/-- A page lies below the root as its path says. -/
theorem place_input (h : Page fs root input above stem) :
    fs.place input = fs.place root ++ above ++ [pageName stem] := by
  have horigin : fs.origin input = fs.origin root :=
    FileSystem.origin_of_split (by rw [h.split_input])
  rw [FileSystem.place, h.split_input, horigin, FileSystem.reach_append,
    FileSystem.reach_openPieces, FileSystem.reach_names h.isName, List.append_assoc]

theorem split_output (h : Page fs root input above stem) (hroot : root.text ≠ "")
    (outDir : Option Path) : (outputPath input root outDir).split =
      ((base root outDir).split.1,
        (base root outDir).openPieces ++ above ++ [drawingName stem]) := by
  rw [h.input_eq, split_outputPath hroot h.isName, rename_pageName h.stem_ne]

theorem isName_drawingName (h : Page fs root input above stem) : IsName (drawingName stem) := by
  rw [← rename_pageName h.stem_ne]
  exact (h.isName _ (by simp)).rename (by decide)

theorem ends_output (h : Page fs root input above stem) (hroot : root.text ≠ "")
    (outDir : Option Path) : (outputPath input root outDir).Ends
      ((base root outDir).openPieces ++ above) (drawingName stem) [] :=
  ⟨by rw [h.split_output hroot], h.isName_drawingName, rfl⟩

/-- The drawing of a page goes to the same place below the directory for drawings as the page has
below its own, but for the extension. -/
theorem place_output (h : Page fs root input above stem) (hroot : root.text ≠ "")
    (outDir : Option Path) : fs.place (outputPath input root outDir) =
      fs.place (base root outDir) ++ above ++ [drawingName stem] := by
  have horigin : fs.origin (outputPath input root outDir) = fs.origin (base root outDir) :=
    FileSystem.origin_of_split (by rw [h.split_output hroot])
  rw [FileSystem.place_of_ends fs (h.ends_output hroot outDir), horigin, FileSystem.reach_append,
    FileSystem.reach_openPieces,
    FileSystem.reach_names fun n hn => h.isName n (List.mem_append_left _ hn)]

/-- No drawing goes where a page is. -/
theorem place_output_ne_place_input (h : Page fs root input above stem)
    (h' : Page fs root input' above' stem') (hroot : root.text ≠ "") (outDir : Option Path) :
    fs.place (outputPath input root outDir) ≠ fs.place input' := by
  intro heq
  rw [h.place_output hroot, h'.place_input, List.append_singleton_inj] at heq
  have hsplit := splitName_drawingName h.stem_ne
  rw [heq.2, splitName_pageName h'.stem_ne, Prod.mk.injEq] at hsplit
  exact absurd hsplit.2 (by decide)

/-- Only the drawing of the same page goes to a place. -/
theorem eq_of_place_output (h : Page fs root input above stem)
    (h' : Page fs root input' above' stem') (hroot : root.text ≠ "") (outDir : Option Path)
    (heq : fs.place (outputPath input root outDir) = fs.place (outputPath input' root outDir)) :
    input = input' := by
  rw [h.place_output hroot, h'.place_output hroot, List.append_singleton_inj,
    List.append_cancel_left_eq] at heq
  have hsplit := splitName_drawingName h.stem_ne
  rw [heq.2, splitName_drawingName h'.stem_ne, Prod.mk.injEq] at hsplit
  rw [h.input_eq, h'.input_eq, heq.1, hsplit.1]

end Page

/-- The pages below a directory are found, each once. -/
theorem exists_pagesAt (hfs : fs.WellFormed) (h : fs.kind? root = some .directory) :
    ∃ inputs, pagesAt fs root = .ok inputs ∧ inputs.Nodup ∧
      ∀ input ∈ inputs, ∃ above stem, Page fs root input above stem := by
  have hpage : ∀ ns ∈ (fs.filesBelow root).filter isPage, ∃ above stem, stem ≠ "" ∧
      ns = above ++ [pageName stem] ∧ (∀ n ∈ ns, IsName n) ∧
      ∃ bytes, fs.entry? (fs.place root ++ ns) = some (.file bytes) := by
    intro ns hns
    obtain ⟨hfile, hpage⟩ := List.mem_filter.mp hns
    obtain ⟨-, bytes, hentry⟩ := (FileSystem.mem_filesBelow h).mp hfile
    obtain ⟨above, stem, heq, hstem⟩ := isPage_iff.mp hpage
    refine ⟨above, stem, hstem, heq, fun n hn => ?_, bytes, hentry⟩
    exact hfs.isName (by rw [hentry]; exact Option.some_ne_none _) n (List.mem_append_right _ hn)
  refine ⟨_, pagesAt_of_directory h, ?_, fun input hinput => ?_⟩
  · -- the names that lead to a page are those behind the pieces of the directory
    refine List.Nodup.map_on (fun ns hns ns' hns' heq => ?_) ((fs.nodup_filesBelow root).filter _)
    obtain ⟨above, stem, -, hns, hnames, -⟩ := hpage ns hns
    obtain ⟨above', stem', -, hns', hnames', -⟩ := hpage ns' hns'
    have hsplit := Path.split_join root (by rw [hns]; exact List.concat_ne_nil _ _) hnames
    rw [heq, Path.split_join root (by rw [hns']; exact List.concat_ne_nil _ _) hnames',
      Prod.mk.injEq, List.append_cancel_left_eq] at hsplit
    exact hsplit.2.symm
  · obtain ⟨ns, hns, rfl⟩ := List.mem_map.mp hinput
    obtain ⟨above, stem, hstem, rfl, hnames, bytes, hentry⟩ := hpage ns hns
    exact ⟨above, stem, hnames, hstem, rfl, bytes,
      FileSystem.readBytes_join hfs h (List.concat_ne_nil _ _) hnames hentry⟩

end Wireframe.Batch
