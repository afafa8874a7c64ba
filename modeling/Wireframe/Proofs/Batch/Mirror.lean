import Wireframe.Proofs.Batch.Clashes
import Wireframe.Proofs.Batch.Order

/-!
# Drawings mirror pages

The drawings of the pages below a directory have the shape of the pages: the names that lead to a
page lead to its drawing too, below the directory for drawings and with the other extension behind
the last of them (`Batch.Mirrored`). So no two of them go to the same path, and a batch of pages that
have been found is never refused (`Batch.mirrored_of_pagesAt`).
-/

namespace Wireframe.Batch

variable {fs : FileSystem} {root : Path} {outDir : Option Path}

/-- Whether a page is at the given names below a directory and its drawing goes to the same names
below the directory for drawings, but for the extension. -/
structure Mirrored (fs : FileSystem) (root : Path) (outDir : Option Path) (input : Path)
    (above : List String) (stem : String) : Prop where
  /-- What the page is relative to the directory. -/
  relative : input.relativeTo? root = some ⟨Path.joined (above ++ [pageName stem])⟩
  /-- How the path of the drawing is written. -/
  output : outputPath input root outDir =
    (base root outDir).join ⟨Path.joined (above ++ [drawingName stem])⟩
  /-- The drawing is inside the directory for drawings. -/
  inside : fs.place (outputPath input root outDir) =
    fs.place (base root outDir) ++ (above ++ [drawingName stem])

/-- The drawing of a page mirrors its place below the root. -/
theorem Page.mirrored {input : Path} {above : List String} {stem : String}
    (h : Page fs root input above stem) (hroot : root.text ≠ "") (outDir : Option Path) :
    Mirrored fs root outDir input above stem where
  relative := by
    rw [h.input_eq]
    exact Path.relativeTo?_join hroot (List.concat_ne_nil _ _) h.isName
  output := by
    have hnames : ∀ n ∈ above ++ [drawingName stem], Path.IsName n := by
      rw [List.forall_mem_append, List.forall_mem_singleton]
      exact ⟨fun n hn => h.isName n (List.mem_append_left _ hn), h.isName_drawingName⟩
    refine Path.eq_of_split ?_
    rw [h.split_output hroot, Path.split_join _ (List.concat_ne_nil _ _) hnames,
      List.append_assoc]
  inside := by rw [h.place_output hroot, List.append_assoc]

/-- **Drawings mirror pages**: the drawing of each page that is found below a directory goes to the
names of the page below the directory for drawings, no two go to the same path, and a batch of these
pages is not refused, whatever has become of the tree meanwhile. -/
theorem mirrored_of_pagesAt (hfs : fs.WellFormed) (h : fs.kind? root = some .directory)
    (outDir : Option Path) : ∃ inputs, pagesAt fs root = .ok inputs ∧
      (∀ input ∈ inputs, ∃ above stem, Mirrored fs root outDir input above stem) ∧
      (∀ input ∈ inputs, ∀ input' ∈ inputs, (outputPath input root outDir).components =
        (outputPath input' root outDir).components → input = input') ∧
      ∀ theme fs' output input,
        (drawAll theme fs' inputs root outDir).1 ≠ .error (.duplicateOutput output input) := by
  have hroot := (FileSystem.refusal?_eq_none_iff.mp (FileSystem.kind?_eq_directory_iff.mp h).1).2
  obtain ⟨inputs, hpages, hnodup, hpage⟩ := exists_pagesAt hfs h
  have hinjective : ∀ input ∈ inputs, ∀ input' ∈ inputs,
      (outputPath input root outDir).components = (outputPath input' root outDir).components →
        input = input' := by
    intro input hinput input' hinput' hsame
    -- the same path leads to the same place, and there goes the drawing of one page only
    obtain ⟨above, stem, hfound⟩ := hpage input hinput
    obtain ⟨above', stem', hfound'⟩ := hpage input' hinput'
    exact hfound.eq_of_place_output hfound' hroot outDir
      (FileSystem.place_eq_of_components fs hsame)
  refine ⟨inputs, hpages, fun input hinput => ?_, hinjective,
    drawAll_ne_duplicateOutput ?_⟩
  · obtain ⟨above, stem, hfound⟩ := hpage input hinput
    exact ⟨above, stem, hfound.mirrored hroot outDir⟩
  · rw [outputs, List.map_map]
    exact hnodup.map_on hinjective

/-! ### A tree with pages of one name -/

/-- A tree with two pages in its root and another one in a directory, under the name of the
first. -/
def nestedPages : FileSystem :=
  (twoPages.put ([] ++ ["b"]) .directory).put (["b"] ++ ["a.txt"]) (.file "# B".toUTF8)

theorem entry?_nestedPages (place : Location) : nestedPages.entry? place =
    if place = ["b", "a.txt"] then some (.file "# B".toUTF8)
    else if place = ["b"] then some .directory else twoPages.entry? place := by
  rw [nestedPages, FileSystem.entry?_put (List.concat_ne_nil _ _),
    FileSystem.entry?_put (List.concat_ne_nil _ _)]
  rfl

theorem wellFormed_nestedPages : nestedPages.WellFormed := by
  have hput := FileSystem.entry?_put (List.cons_ne_nil "b" []) twoPages .directory
  have hwell := wellFormed_twoPages.put (FileSystem.entry?_nil _) (by decide : Path.IsName "b")
    (.inl rfl)
  refine hwell.put ((hput _).trans (if_pos rfl)) (by decide) (.inr ?_)
  rw [List.nil_append, hput, if_neg (by decide), entry?_twoPages]
  simp

theorem kind?_nestedPages : nestedPages.kind? ⟨"."⟩ = some .directory := by
  have hrefusal : FileSystem.refusal? ⟨"."⟩ = none := by decide
  have hway : nestedPages.wayTo ⟨"."⟩ = [] := by decide
  have hplace : nestedPages.place ⟨"."⟩ = [] := by decide
  rw [FileSystem.kind?_eq_directory_iff, hway, hplace]
  exact ⟨hrefusal, fun _ hmem => absurd hmem List.not_mem_nil, FileSystem.entry?_nil _⟩

/-- Every page of the tree is found. -/
theorem mem_pagesAt_nestedPages {inputs : List Path} (h : pagesAt nestedPages ⟨"."⟩ = .ok inputs)
    {ns : List String} (hne : ns ≠ []) (hpage : isPage ns = true) {bytes : ByteArray}
    (hentry : nestedPages.entry? ns = some (.file bytes)) :
    (Path.mk ".").join ⟨Path.joined ns⟩ ∈ inputs := by
  have hplace : nestedPages.place ⟨"."⟩ = [] := by decide
  have hfile : ns ∈ nestedPages.filesBelow ⟨"."⟩ := by
    rw [FileSystem.mem_filesBelow kind?_nestedPages, hplace]
    exact ⟨hne, bytes, hentry⟩
  rw [pagesAt_of_directory kind?_nestedPages, Except.ok.injEq] at h
  rw [← h]
  exact List.mem_map_of_mem (List.mem_filter.mpr ⟨hfile, hpage⟩)

/-- Pages of one name in different directories have their drawings in different directories. -/
theorem mirrored_nestedPages : nestedPages.WellFormed ∧
    nestedPages.kind? ⟨"."⟩ = some .directory ∧ ∃ inputs, pagesAt nestedPages ⟨"."⟩ = .ok inputs ∧
      (⟨"./a.txt"⟩ ∈ inputs ∧ ⟨"./b/a.txt"⟩ ∈ inputs) ∧
      (∀ input ∈ inputs, ∃ above stem,
        Mirrored nestedPages ⟨"."⟩ (some ⟨"out"⟩) input above stem) ∧
      (∀ input ∈ inputs, ∀ input' ∈ inputs, (outputPath input ⟨"."⟩ (some ⟨"out"⟩)).components =
        (outputPath input' ⟨"."⟩ (some ⟨"out"⟩)).components → input = input') ∧
      ∀ theme fs' output input, (drawAll theme fs' inputs ⟨"."⟩ (some ⟨"out"⟩)).1 ≠
        .error (.duplicateOutput output input) := by
  refine ⟨wellFormed_nestedPages, kind?_nestedPages, ?_⟩
  obtain ⟨inputs, hpages, hmirrored⟩ :=
    mirrored_of_pagesAt wellFormed_nestedPages kind?_nestedPages (some ⟨"out"⟩)
  have ha : nestedPages.entry? ["a.txt"] = some (.file "# A".toUTF8) := by
    rw [entry?_nestedPages, if_neg (by decide), if_neg (by decide), entry?_twoPages,
      if_neg (by decide), if_pos rfl]
  have hb : nestedPages.entry? ["b", "a.txt"] = some (.file "# B".toUTF8) := by
    rw [entry?_nestedPages, if_pos rfl]
  exact ⟨inputs, hpages, ⟨mem_pagesAt_nestedPages hpages (List.cons_ne_nil _ _) (by decide) ha,
    mem_pagesAt_nestedPages hpages (List.cons_ne_nil _ _) (by decide) hb⟩, hmirrored⟩

end Wireframe.Batch
