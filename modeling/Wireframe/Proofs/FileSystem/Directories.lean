import Wireframe.Proofs.FileSystem.Files

/-!
# Making directories

To make a directory with all that it lies in, the disk is asked for the directory first, and for
what it lies in only if that is missing. Whatever comes of it, the tree has grown by directories at
places that the path leads through (`FileSystem.makeDirectories_grows`). If it goes well, there is a
directory at all of these places (`FileSystem.kind?_of_makeDirectories`), and it goes well if no
file is in the way and the path does not end in a point behind a name
(`FileSystem.makeDirectories_of_clear`).
-/

namespace Wireframe.FileSystem

open Wireframe.Path (isIdle)

variable {fs fs' : FileSystem} {path : Path}

/-! ### Steps on a file system -/

section Steps

variable {α β : Type}

theorem bind_apply (x : StateM FileSystem α) (f : α → StateM FileSystem β) (fs : FileSystem) :
    (x >>= f) fs = f (x fs).1 (x fs).2 := rfl

theorem pure_apply (a : α) (fs : FileSystem) : (pure a : StateM FileSystem α) fs = (a, fs) := rfl

theorem kind?_apply (path : Path) (fs : FileSystem) :
    (Disk.kind? path : StateM FileSystem _) fs = (fs.kind? path, fs) := rfl

theorem isDirectory_apply (path : Path) (fs : FileSystem) :
    (Disk.isDirectory path : StateM FileSystem _) fs =
      (fs.kind? path == some .directory, fs) := rfl

theorem makeDirectory_apply (path : Path) (fs : FileSystem) :
    (Disk.makeDirectory path : StateM FileSystem _) fs = fs.makeDirectory path := rfl

theorem writeBytes_apply (path : Path) (bytes : ByteArray) (fs : FileSystem) :
    (Disk.writeBytes path bytes : StateM FileSystem _) fs = fs.writeBytes path bytes := rfl

theorem writeText_apply (path : Path) (text : String) (fs : FileSystem) :
    (Disk.writeText path text : StateM FileSystem _) fs = fs.writeBytes path text.toUTF8 := by
  rw [Disk.writeText, writeBytes_apply]

theorem readText_apply (path : Path) (fs : FileSystem) :
    (Disk.readText path : StateM FileSystem _) fs =
      ((fs.readBytes path).bind Disk.textOfBytes, fs) := rfl

theorem names_apply (path : Path) (fs : FileSystem) :
    (Disk.names path : StateM FileSystem _) fs = (fs.names path, fs) := rfl

end Steps

/-- The first directory of a list is made, after the others if they are what it lacks. -/
def makeChain (fs : FileSystem) (chain : List Path) : Except Fault Unit × FileSystem :=
  Disk.makeChain (m := StateM FileSystem) chain fs

/-- A directory is made with all that it lies in. -/
def makeDirectories (fs : FileSystem) (path : Path) : Except Fault Unit × FileSystem :=
  Disk.makeDirectories (m := StateM FileSystem) path fs

theorem makeChain_apply (chain : List Path) (fs : FileSystem) :
    (Disk.makeChain chain : StateM FileSystem _) fs = fs.makeChain chain := rfl

theorem makeDirectories_apply (path : Path) (fs : FileSystem) :
    (Disk.makeDirectories path : StateM FileSystem _) fs = fs.makeDirectories path := rfl

theorem makeDirectories_eq (fs : FileSystem) (path : Path) :
    fs.makeDirectories path = fs.makeChain path.ancestors := rfl

/-- What comes of an attempt to make a directory: one that is there will do. -/
def settle (path : Path) : Except Fault Unit × FileSystem → Except Fault Unit × FileSystem
  | (.ok (), fs) => (.ok (), fs)
  | (.error fault, fs) => (if fs.kind? path = some .directory then .ok () else .error fault, fs)

/-- An attempt that fails for want of something is made again after the rest of the list. -/
theorem makeChain_cases (fs : FileSystem) (h : path.text ≠ "") (above : List Path) :
    (fs.makeDirectory path).1 ≠ .error .notFound ∧
        fs.makeChain (path :: above) = settle path (fs.makeDirectory path) ∨
      fs.makeDirectory path = (.error .notFound, fs) ∧
        ((fs.makeChain above).1 = .ok () ∧ fs.makeChain (path :: above) =
            settle path ((fs.makeChain above).2.makeDirectory path) ∨
          ∃ fault, (fs.makeChain above).1 = .error fault ∧
            fs.makeChain (path :: above) = (.error fault, (fs.makeChain above).2)) := by
  have hunfold : fs.makeChain (path :: above) =
      Disk.makeChain (m := StateM FileSystem) (path :: above) fs := rfl
  rw [hunfold, Disk.makeChain, if_neg (by simpa [Path.isEmpty] using h), bind_apply,
    makeDirectory_apply]
  -- only a missing directory above leads to the rest of the list
  rcases hmade : fs.makeDirectory path with ⟨fault | -, fs'⟩
  · by_cases hfault : fault = .notFound
    · subst hfault
      obtain rfl : fs' = fs := by
        rcases fs.makeDirectory_cases path with ⟨fault, heq⟩ | ⟨heq, -⟩ <;>
          rw [hmade] at heq <;> cases heq
        rfl
      refine .inr ⟨rfl, ?_⟩
      simp only [bind_apply, makeChain_apply]
      rcases fs'.makeChain above with ⟨fault | -, fs''⟩
      · exact .inr ⟨fault, rfl, rfl⟩
      · refine .inl ⟨rfl, ?_⟩
        simp only [bind_apply, makeDirectory_apply]
        rcases fs''.makeDirectory path with ⟨fault | -, _⟩
        · simp [settle, bind_apply, pure_apply, isDirectory_apply]
        · rfl
    · refine .inl ⟨by simpa using hfault, ?_⟩
      cases fault with
      | notFound => exact absurd rfl hfault
      | _ => simp [settle, bind_apply, pure_apply, isDirectory_apply]
  · exact .inl ⟨by simp, rfl⟩

/-! ### What making directories changes -/

/-- Making a directory makes nothing else than the one at the place of its path. -/
theorem makeDirectory_grows (fs : FileSystem) (path : Path) :
    fs.Grows [fs.place path] (fs.makeDirectory path).2 := by
  rcases fs.makeDirectory_cases path with
    ⟨fault, heq⟩ | ⟨heq, -, hnone, ps, name, slashes, hends, -⟩
  · rw [heq]
    exact .refl fs _
  · rw [heq]
    refine ⟨rfl, fun place => ?_⟩
    rw [entry?_put (place_ne_nil fs hends)]
    by_cases hplace : place = fs.place path
    · rw [if_pos hplace, hplace]
      exact .inr ⟨List.mem_singleton.mpr rfl, hnone, rfl⟩
    · exact .inl (if_neg hplace)

/-- A directory that has been made is one. -/
theorem kind?_makeDirectory (h : (fs.makeDirectory path).1 = .ok ()) :
    (fs.makeDirectory path).2.kind? path = some .directory := by
  rcases fs.makeDirectory_cases path with
    ⟨fault, heq⟩ | ⟨heq, hrefusal, -, ps, name, slashes, hends, hway⟩
  · rw [heq] at h
    cases h
  · have hput := entry?_put (place_ne_nil fs hends) fs .directory
    rw [heq, kind?_eq_directory_iff]
    refine ⟨hrefusal, fun place hplace => ?_, (hput _).trans (if_pos rfl)⟩
    rw [hput]
    split
    · rfl
    · rename_i hne
      -- behind the name there are only slashes, which lead nowhere else
      have hidle := all_isIdle hends.slashes_idle
      change place ∈ fs.wayTo path at hplace
      rw [wayTo, hends.pieces, List.append_cons, way_append, List.mem_append] at hplace
      refine hway place (hplace.resolve_right fun hmem => hne ?_)
      rw [eq_of_mem_way_idle hidle hmem, place_of_ends fs hends, reach_append]
      exact step_name hends.isName _

/-- Settling for a directory that is there changes nothing. -/
theorem settle_snd (path : Path) (made : Except Fault Unit × FileSystem) :
    (settle path made).2 = made.2 := by
  match made with
  | (.ok (), _) => rfl
  | (.error _, _) => rfl

/-- If an attempt to make a directory is settled well, the directory is there. -/
theorem kind?_settle (h : (settle path (fs.makeDirectory path)).1 = .ok ()) :
    (fs.makeDirectory path).2.kind? path = some .directory := by
  match hmade : fs.makeDirectory path with
  | (.ok (), fs') =>
    have hok : (fs.makeDirectory path).1 = .ok () := by rw [hmade]
    have hkind := kind?_makeDirectory hok
    rwa [hmade] at hkind
  | (.error fault, fs') =>
    rw [hmade, settle] at h
    by_contra hkind
    rw [if_neg hkind] at h
    cases h

/-- A further attempt makes nothing else than a directory at the place of its path. -/
theorem settle_grows {places : List Location} (h : fs.Grows places fs')
    (hpath : fs.place path ∈ places) :
    fs.Grows places (settle path (fs'.makeDirectory path)).2 := by
  have hgrows := fs'.makeDirectory_grows path
  rw [h.place_eq] at hgrows
  rw [settle_snd]
  exact h.trans (hgrows.mono (by simpa using hpath))

theorem makeChain_empty (fs : FileSystem) (h : path.text = "") (above : List Path) :
    fs.makeChain (path :: above) = (.ok (), fs) := by
  rw [makeChain, Disk.makeChain, if_pos (by simpa [Path.isEmpty] using h)]
  rfl

/-- The directories of a list are made where they are to be. -/
theorem makeChain_grows (fs : FileSystem) (chain : List Path) :
    fs.Grows (chain.map fs.place) (fs.makeChain chain).2 := by
  induction chain with
  | nil => exact .refl fs _
  | cons path above ih =>
    by_cases hempty : path.text = ""
    · rw [fs.makeChain_empty hempty]
      exact .refl fs _
    · have hmem : fs.place path ∈ (path :: above).map fs.place := by simp
      have hgrows := ih.mono (List.subset_cons_self (fs.place path) _)
      rcases fs.makeChain_cases hempty above with
        ⟨-, heq⟩ | ⟨-, ⟨-, heq⟩ | ⟨fault, -, heq⟩⟩ <;> rw [heq]
      · exact settle_grows (.refl fs _) hmem
      · exact settle_grows hgrows hmem
      · exact hgrows

/-- Making a chain of directories leaves a tree well formed. -/
protected theorem WellFormed.makeChain (h : fs.WellFormed) (chain : List Path) :
    (fs.makeChain chain).2.WellFormed := by
  induction chain with
  | nil => exact h
  | cons path above ih =>
    by_cases hempty : path.text = ""
    · rwa [fs.makeChain_empty hempty]
    · rcases fs.makeChain_cases hempty above with
        ⟨-, heq⟩ | ⟨-, ⟨-, heq⟩ | ⟨fault, -, heq⟩⟩ <;> rw [heq]
      · rw [settle_snd]
        exact h.makeDirectory path
      · rw [settle_snd]
        exact ih.makeDirectory path
      · exact ih

/-- If a chain of directories is made, the first of them is there. -/
theorem kind?_of_makeChain (hpath : path.text ≠ "") {above : List Path}
    (hok : (fs.makeChain (path :: above)).1 = .ok ()) :
    (fs.makeChain (path :: above)).2.kind? path = some .directory := by
  rcases fs.makeChain_cases hpath above with
    ⟨-, heq⟩ | ⟨-, ⟨-, heq⟩ | ⟨fault, -, heq⟩⟩ <;> rw [heq] at hok ⊢
  · rw [settle_snd]
    exact kind?_settle hok
  · rw [settle_snd]
    exact kind?_settle hok
  · cases hok

/-! ### The places that a path leads through -/

section Behind

variable {a : Path.Anchor} {ps idles : List String} {last : String}

/-- A path whose last piece says something leads through the places on the way to this piece and
the place that it leads to. -/
theorem mem_through (h : path.split = (a, ps ++ last :: idles)) (hidles : idles.all isIdle = true)
    {place : Location} : place ∈ fs.through path ↔
      place ∈ way (fs.origin path) (ps ++ [last]) ∨ place = fs.place path := by
  have hplace : fs.place path = reach (fs.origin path) (ps ++ [last]) := by
    rw [FileSystem.place, h, List.append_cons, reach_append, reach_idle hidles]
  have hway : fs.wayTo path =
      way (fs.origin path) (ps ++ [last]) ++ way (fs.place path) idles := by
    rw [hplace, ← way_append, wayTo, h, List.append_assoc, List.singleton_append]
  rw [through, hway, List.mem_append, List.mem_append, List.mem_singleton, or_assoc]
  exact or_congr_right (or_iff_right_of_imp (eq_of_mem_way_idle hidles))

/-- Trimmed pieces lead to the same place. -/
theorem reach_trimPieces (location : Location) (ps : List String) :
    reach location (Path.trimPieces ps) = reach location ps := by
  obtain ⟨rest, hrest, hps, -⟩ := Path.exists_trimPieces_append ps
  nth_rewrite 2 [hps]
  rw [reach_append, reach_idle hrest]

/-- The parent of a path leads through the places on the way to the last piece of the path. -/
theorem mem_through_parent (h : path.split = (a, ps ++ last :: idles)) (hlast : isIdle last = false)
    {place : Location} : place ∈ fs.through (Path.build a (Path.trimPieces ps)) ↔
      place ∈ way (fs.origin path) (ps ++ [last]) := by
  obtain ⟨rest, hrest, hps, -⟩ := Path.exists_trimPieces_append ps
  have horigin {path' : Path} {qs : List String} (h' : path'.split = (a, qs)) :
      fs.origin path' = fs.origin path := origin_of_split (by rw [h', h])
  have hway : place ∈ way (fs.origin path) (ps ++ [last]) ↔
      place ∈ way (fs.origin path) (Path.trimPieces ps) ∨ place = reach (fs.origin path) ps := by
    rw [way_concat, List.mem_append, List.mem_singleton]
    nth_rewrite 1 [hps]
    rw [way_append, List.mem_append, or_assoc, reach_trimPieces]
    exact or_congr_right (or_iff_right_of_imp (eq_of_mem_way_idle hrest))
  rw [hway, through, List.mem_append, List.mem_singleton]
  rcases Path.split_parent h hlast with hparent | ⟨hnil, hparent⟩ <;>
    rw [FileSystem.place, wayTo, horigin hparent, hparent]
  · rw [reach_trimPieces]
  · rw [← reach_trimPieces _ ps, hnil]
    simp [way, reach, step, isIdle]

theorem through_parent_subset {parent : Path} (h : path.parent? = some parent) :
    fs.through parent ⊆ fs.through path := by
  intro place hplace
  rcases path.eq_idle_or_eq_append with hidle | ⟨ps, last, idles, hsplit, hlast, hidles⟩
  · -- the parent of `.` is the empty path, and both lead to the working directory
    have hcomponents : path.components = path.split.1.component?.toList := by
      rw [Path.components, Path.filterMap_component?_of_idle hidle, List.append_nil]
    rw [Path.parent?, hcomponents] at h
    cases ha : path.split.1 <;> rw [ha] at h <;> cases h
    have horigin : fs.origin path = fs.workingDirectory := by
      rw [origin, Path.isAbsolute, ha]
      rfl
    have hparent : fs.through ⟨""⟩ = [fs.workingDirectory, fs.workingDirectory] := by
      rw [through, wayTo, FileSystem.place, origin, Path.isAbsolute, Path.split_empty]
      rfl
    rw [hparent] at hplace
    simp only [List.mem_cons, List.not_mem_nil, or_false, or_self] at hplace
    rw [hplace, ← horigin, ← reach_idle hidle (fs.origin path)]
    exact fs.place_mem_through path
  · rw [Path.parent?_eq hsplit hlast hidles, Option.some.injEq] at h
    rw [← h, mem_through_parent hsplit hlast] at hplace
    exact (mem_through hsplit hidles).mpr (.inl hplace)

/-- What a path lies in is at places that the path leads through. -/
theorem place_mem_through_of_ancestor {ancestor : Path} (h : ancestor ∈ path.ancestors) :
    fs.place ancestor ∈ fs.through path := by
  generalize hcount : path.components.length = count
  induction count generalizing path with
  | zero =>
    have hparent : path.parent? = none := by
      simp [Path.parent?, List.length_eq_zero_iff.mp hcount]
    rw [Path.ancestors_of_no_parent hparent, List.mem_singleton] at h
    exact h ▸ fs.place_mem_through path
  | succ count ih =>
    cases hparent : path.parent? with
    | none =>
      rw [Path.ancestors_of_no_parent hparent, List.mem_singleton] at h
      exact h ▸ fs.place_mem_through path
    | some parent =>
      rw [Path.ancestors_of_parent hparent, List.mem_cons] at h
      rcases h with rfl | h
      · exact fs.place_mem_through _
      · refine through_parent_subset hparent (ih h ?_)
        rw [Path.components_parent hparent, List.length_dropLast, hcount]
        rfl

end Behind

/-- What making a directory with all that it lies in changes. -/
theorem makeDirectories_grows (hfs : fs.WellFormed) (path : Path) :
    fs.Grows (fs.through path) (fs.makeDirectories path).2 ∧
      (fs.makeDirectories path).2.WellFormed := by
  refine ⟨(fs.makeChain_grows path.ancestors).mono fun place hplace => ?_,
    hfs.makeChain path.ancestors⟩
  obtain ⟨ancestor, hancestor, rfl⟩ := List.mem_map.mp hplace
  exact place_mem_through_of_ancestor hancestor

/-- If it goes well, the directory is there. -/
theorem kind?_of_makeDirectories (hpath : path.text ≠ "")
    (hok : (fs.makeDirectories path).1 = .ok ()) :
    (fs.makeDirectories path).2.kind? path = some .directory := by
  obtain ⟨above, habove⟩ := path.exists_ancestors_eq
  rw [makeDirectories_eq, habove] at hok ⊢
  exact kind?_of_makeChain hpath hok

/-! ### When making directories goes well -/

/-- A directory that is there cannot be made. -/
theorem makeDirectory_of_directory (h : fs.kind? path = some .directory) :
    fs.makeDirectory path = (.error .alreadyExists, fs) := by
  obtain ⟨hrefusal, hway, hplace⟩ := kind?_eq_directory_iff.mp h
  rw [makeDirectory]
  by_cases hends : ∃ ps name slashes, path.Ends ps name slashes
  · obtain ⟨ps, name, slashes, hends⟩ := hends
    have hsite := site_eq_place_iff.mpr
      ⟨hrefusal, rfl, ps, name, slashes, hends, rfl, fun p hp => hway p ?_⟩
    · simp only [hsite, hplace]
    · rw [wayTo, hends.pieces, List.append_cons, way_append]
      exact List.mem_append_left _ hp
  · rw [site_of_not_ends hrefusal (by simpa using hends),
      find_eq_ok_iff.mpr ⟨hrefusal, hway, rfl, hplace⟩]
    rfl

theorem settle_of_directory (h : fs.kind? path = some .directory) :
    settle path (fs.makeDirectory path) = (.ok (), fs) := by
  rw [makeDirectory_of_directory h, settle, if_pos h]

/-- A directory that is there is made without anything being changed. -/
theorem makeDirectories_of_directory (h : fs.kind? path = some .directory) :
    fs.makeDirectories path = (.ok (), fs) := by
  have hpath := (refusal?_eq_none_iff.mp (kind?_eq_directory_iff.mp h).1).2
  obtain ⟨above, habove⟩ := path.exists_ancestors_eq
  have hmake := makeDirectory_of_directory h
  rw [makeDirectories_eq, habove]
  rcases fs.makeChain_cases hpath above with ⟨-, heq⟩ | ⟨hmissing, -⟩
  · rw [heq, settle_of_directory h]
  · rw [hmake] at hmissing
    cases hmissing

section Behind

variable {a : Path.Anchor} {ps slashes : List String} {last : String}

/-- If the only fault of a clear way is that something is missing, some place on it is empty. -/
theorem exists_missing {location : Location} (hclear : fs.Clear (way location ps))
    (h : fs.follow location ps = .error .notFound) :
    ∃ place ∈ way location ps, fs.entry? place = none := by
  by_contra hall
  push Not at hall
  have hok := follow_eq_ok_iff.mpr ⟨fun place hplace =>
    (hclear.directory_or_none hplace).resolve_right (hall place hplace), rfl⟩
  rw [hok] at h
  cases h

/-- There are directories wherever a path leads through if there are on the way to its last piece
and at its place. -/
theorem kind?_of_behind (hrefusal : refusal? path = none)
    (h : path.split = (a, ps ++ last :: slashes)) (hidle : slashes.all isIdle = true)
    (hway : ∀ place ∈ way (fs.origin path) (ps ++ [last]), fs.entry? place = some .directory)
    (hplace : fs.entry? (fs.place path) = some .directory) : fs.kind? path = some .directory := by
  refine kind?_eq_directory_iff_through.mpr ⟨hrefusal, fun place hmem => ?_⟩
  rcases (mem_through h hidle).mp hmem with hmem | rfl
  · exact hway place hmem
  · exact hplace

theorem clear_behind (h : path.split = (a, ps ++ last :: slashes))
    (hidle : slashes.all isIdle = true) (hclear : fs.Clear (fs.through path)) :
    fs.Clear (way (fs.origin path) (ps ++ [last])) :=
  fun place hplace => hclear place ((mem_through h hidle).mpr (.inl hplace))

/-- What an attempt to make a directory comes to if no file is in the way: there is a directory, or
something is missing on the way to the last piece of its path. -/
def Attempted (fs : FileSystem) (path : Path) (pieces : List String) : Prop :=
  (settle path (fs.makeDirectory path)).1 = .ok () ∧
      (fs.makeDirectory path).1 ≠ .error .notFound ∨
    fs.makeDirectory path = (.error .notFound, fs) ∧
      ∃ place ∈ way (fs.origin path) pieces, fs.entry? place = none

/-- An attempt to make a directory that is there ends well. -/
theorem attempted_of_directory (h : fs.kind? path = some .directory) (pieces : List String) :
    Attempted fs path pieces := by
  refine .inl ⟨?_, ?_⟩
  · rw [settle_of_directory h]
  · rw [makeDirectory_of_directory h]
    simp

/-- A path that ends in `..` leads to the directory above one that is on the way. -/
theorem attempted_of_up (hfs : fs.WellFormed) (hrefusal : refusal? path = none)
    (h : path.split = (a, ps ++ ".." :: slashes)) (hslashes : slashes.all (· == "") = true)
    (hclear : fs.Clear (fs.through path)) : Attempted fs path (ps ++ [".."]) := by
  have hidle := all_isIdle hslashes
  by_cases hall : ∀ place ∈ way (fs.origin path) (ps ++ [".."]), fs.entry? place = some .directory
  · have hbelow := hall (reach (fs.origin path) ps) (by simp [way_concat])
    have hplace : fs.place path = (reach (fs.origin path) ps).dropLast := by
      rw [FileSystem.place, h, List.append_cons, reach_append, reach_idle hidle, reach_append]
      rfl
    refine attempted_of_directory (kind?_of_behind hrefusal h hidle hall ?_) _
    rw [hplace]
    exact hfs.directory_dropLast (by rw [hbelow]; exact Option.some_ne_none _)
  · push Not at hall
    obtain ⟨place, hmem, hplace⟩ := hall
    have hnone := ((clear_behind h hidle hclear).directory_or_none hmem).resolve_left hplace
    -- nothing can be made at the path, and nothing is found there either
    have hends : ∀ ps' name slashes', ¬ path.Ends ps' name slashes' := by
      intro ps' name slashes' hends
      have hdrop := dropSlashes_of_ends hends
      rw [dropSlashes_eq, h, Path.rdropWhile_append_cons (p := (· == "")) (by decide) hslashes,
        List.append_singleton_inj] at hdrop
      exact hends.isName.not_up hdrop.2.symm
    have hfind : fs.find path = .error .notFound := by
      refine (find_of_clear hrefusal fun p hp =>
        hclear p (List.mem_append_left _ hp)).resolve_left ?_
      rintro ⟨entry, hfind⟩
      refine hplace ((find_eq_ok_iff.mp hfind).2.1 place ?_)
      rw [wayTo, h, List.append_cons, way_append]
      exact List.mem_append_left _ hmem
    refine .inr ⟨?_, place, hmem, hnone⟩
    rw [makeDirectory, site_of_not_ends hrefusal hends, hfind]
    rfl

/-- A path that ends in a name says what is to be made at its place. -/
theorem attempted_of_ends (hrefusal : refusal? path = none)
    (h : path.split = (a, ps ++ last :: slashes)) (hends : path.Ends ps last slashes)
    (hclear : fs.Clear (fs.through path)) : Attempted fs path (ps ++ [last]) := by
  have hidle := all_isIdle hends.slashes_idle
  have hclearWay := clear_behind h hidle hclear
  rcases follow_of_clear hclearWay with hfollow | hfollow
  · have hway := (follow_eq_ok_iff.mp hfollow).1
    rcases hclear.directory_or_none (fs.place_mem_through path) with hplace | hplace
    · exact attempted_of_directory (kind?_of_behind hrefusal h hidle hway hplace) _
    · have hsite := site_eq_place_iff.mpr ⟨hrefusal, rfl, ps, last, slashes, hends, rfl, hway⟩
      refine .inl ?_
      simp only [makeDirectory, hsite, hplace]
      exact ⟨rfl, by simp⟩
  · refine .inr ⟨?_, exists_missing hclearWay hfollow⟩
    simp only [makeDirectory, site_of_ends hrefusal hends, hfollow]
    rfl

/-- If no file is in the way, an attempt to make a directory comes to one, or something is missing
on the way. -/
theorem makeDirectory_of_clear (hfs : fs.WellFormed) (hrefusal : refusal? path = none)
    (h : path.split = (a, ps ++ last :: slashes)) (hlast : isIdle last = false)
    (hslashes : slashes.all (· == "") = true) (hclear : fs.Clear (fs.through path)) :
    Attempted fs path (ps ++ [last]) := by
  by_cases hup : last = ".."
  · subst hup
    exact attempted_of_up hfs hrefusal h hslashes hclear
  · have hname := (refusal?_eq_none_iff.mp hrefusal).1.isName (by simp [h]) hlast hup
    exact attempted_of_ends hrefusal h ⟨by rw [h], hname, hslashes⟩ hclear

/-- A path is refused no more than what it lies in. -/
theorem refusal?_parent (hrefusal : refusal? path = none)
    (h : path.split = (a, ps ++ last :: slashes)) {parent : Path} {init : List String}
    {last' : String} (hparent : parent.split = (a, init ++ [last'])) (hlast' : isIdle last' = false)
    (hinit : Path.trimPieces ps = init ++ [last']) : refusal? parent = none := by
  refine refusal?_eq_none_iff.mpr ⟨?_, Path.text_ne_of_split hparent hlast'⟩
  obtain ⟨rest, -, hps, -⟩ := Path.exists_trimPieces_append ps
  have hclean := Path.clean_iff.mp (refusal?_eq_none_iff.mp hrefusal).1
  rw [h, hps, hinit] at hclean
  rw [Path.clean_iff, hparent]
  exact fun p hp => hclean p (List.mem_append_left _ (List.mem_append_left _ hp))

/-- If nothing is missing on the way, the first attempt is good. -/
theorem makeDirectories_of_present (hfs : fs.WellFormed) (hrefusal : refusal? path = none)
    (h : path.split = (a, ps ++ last :: slashes)) (hlast : isIdle last = false)
    (hslashes : slashes.all (· == "") = true) (hclear : fs.Clear (fs.through path))
    (hpresent : ∀ place ∈ way (fs.origin path) (ps ++ [last]), fs.entry? place ≠ none) :
    (fs.makeDirectories path).1 = .ok () := by
  have hparent := Path.parent?_eq h hlast (all_isIdle hslashes)
  rw [makeDirectories_eq, Path.ancestors_of_parent hparent]
  rcases makeDirectory_of_clear hfs hrefusal h hlast hslashes hclear with
    ⟨hsettled, hfound⟩ | ⟨-, place, hplace, hnone⟩
  · rcases fs.makeChain_cases (refusal?_eq_none_iff.mp hrefusal).2 _ with
      ⟨-, heq⟩ | ⟨hmissing, -⟩
    · rw [heq, hsettled]
    · rw [hmissing] at hfound
      exact absurd rfl hfound
  · exact absurd hnone (hpresent place hplace)

/-- If what a path lies in can be made, nothing is missing at the second attempt. -/
theorem makeDirectories_of_parent (hfs : fs.WellFormed) (hrefusal : refusal? path = none)
    (h : path.split = (a, ps ++ last :: slashes)) (hlast : isIdle last = false)
    (hslashes : slashes.all (· == "") = true) (hclear : fs.Clear (fs.through path))
    {parent : Path} (hparent : path.parent? = some parent) (htext : parent.text ≠ "")
    (hok : (fs.makeDirectories parent).1 = .ok ()) : (fs.makeDirectories path).1 = .ok () := by
  obtain ⟨hgrows, hwell⟩ := makeDirectories_grows hfs parent
  have hkind := kind?_of_makeDirectories htext hok
  rw [makeDirectories_eq] at hok hgrows hwell hkind
  have hpresent := (kind?_eq_directory_iff_through.mp hkind).2
  rw [makeDirectories_eq, Path.ancestors_of_parent hparent]
  -- the first attempt settles it, or the second one finds all of the way made
  rcases fs.makeChain_cases (refusal?_eq_none_iff.mp hrefusal).2 parent.ancestors with
    ⟨hfound, heq⟩ | ⟨-, ⟨-, heq⟩ | ⟨fault, herror, -⟩⟩
  · rcases makeDirectory_of_clear hfs hrefusal h hlast hslashes hclear with
      ⟨hsettled, -⟩ | ⟨hmissing, -⟩
    · rw [heq, hsettled]
    · rw [hmissing] at hfound
      exact absurd rfl hfound
  · rw [heq]
    have hclear' := hgrows.clear_iff.mpr hclear
    rw [← hgrows.through_eq] at hclear'
    rcases makeDirectory_of_clear hwell hrefusal h hlast hslashes hclear' with
      ⟨hsettled, -⟩ | ⟨-, place, hplace, hnone⟩
    · exact hsettled
    · rw [Path.parent?_eq h hlast (all_isIdle hslashes), Option.some.injEq] at hparent
      rw [← mem_through_parent h hlast, hparent] at hplace
      rw [hpresent place hplace] at hnone
      cases hnone
  · rw [hok] at herror
    cases herror

/-- A directory is made with all that it lies in if no file is in the way and the path does not end
in a point behind a name. -/
theorem makeDirectories_of_clear (hfs : fs.WellFormed) (hrefusal : refusal? path = none)
    (h : path.split = (a, ps ++ last :: slashes)) (hlast : isIdle last = false)
    (hslashes : slashes.all (· == "") = true) (hclear : fs.Clear (fs.through path)) :
    (fs.makeDirectories path).1 = .ok () := by
  induction hn : ps.length using Nat.strong_induction_on generalizing path ps last slashes with
  | _ n ih =>
  subst hn
  obtain ⟨rest, hrest, hps, hnil | ⟨init, last', hinit, hlast'⟩⟩ := Path.exists_trimPieces_append ps
  · -- nothing is on the way but where the path starts, and that is there
    rw [hnil, List.nil_append] at hps
    rw [← hps] at hrest
    refine makeDirectories_of_present hfs hrefusal h hlast hslashes hclear fun place hplace => ?_
    rw [way_concat, reach_idle hrest, List.mem_append, List.mem_singleton] at hplace
    rw [hplace.elim (eq_of_mem_way_idle hrest) id, hfs.directory_origin]
    exact Option.some_ne_none _
  · -- what the path lies in is made first, and it has fewer pieces
    have hparent := Path.parent?_eq h hlast (all_isIdle hslashes)
    have hsplit : (Path.build a (Path.trimPieces ps)).split = (a, init ++ [last']) := by
      rw [← hinit]
      refine (Path.split_parent h hlast).resolve_right fun hnil => ?_
      rw [hinit] at hnil
      exact List.concat_ne_nil _ _ hnil.1
    have hrefusal' := refusal?_parent hrefusal h hsplit hlast' hinit
    have hlength : init.length < ps.length := by
      rw [hps, hinit, List.length_append, List.length_append, List.length_singleton]
      omega
    refine makeDirectories_of_parent hfs hrefusal h hlast hslashes hclear hparent
      (refusal?_eq_none_iff.mp hrefusal').2 ?_
    exact ih init.length hlength hrefusal' hsplit hlast' rfl
      (fun place hplace => hclear place (through_parent_subset hparent hplace)) rfl

end Behind

end Wireframe.FileSystem
