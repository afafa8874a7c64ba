import Wireframe.Proofs.FileSystem.Places

/-!
# Reading and writing files

What the operations on single paths do, in terms of the places on the way and the place that a path
leads to. A file is written at a place in a directory that is there, and nowhere else
(`FileSystem.writeBytes_eq_ok_iff`); a step that is not taken changes nothing
(`FileSystem.writeBytes_cases`, `FileSystem.makeDirectory_cases`). What has been written is read
back (`FileSystem.readBytes_writeBytes`).
-/

namespace Wireframe

/-- Whether a path ends in a name, behind other pieces and with slashes behind it or none. -/
structure Path.Ends (path : Path) (ps : List String) (name : String) (slashes : List String) :
    Prop where
  pieces : path.split.2 = ps ++ name :: slashes
  isName : IsName name
  slashes_idle : slashes.all (· == "") = true

/-- A piece of a path is a name unless it says something else or holds a null character. -/
theorem Path.Clean.isName {path : Path} (h : path.Clean) {piece : String}
    (hmem : piece ∈ path.split.2) (hidle : isIdle piece = false) (hup : piece ≠ "..") :
    IsName piece :=
  ⟨hidle, hup, slash_not_mem hmem, clean_iff.mp h piece hmem⟩

theorem Path.split_join_name (dir : Path) {name : String} (h : IsName name) :
    (dir.join ⟨name⟩).split = (dir.split.1, dir.openPieces ++ [name]) := by
  rw [← Path.joined_singleton name]
  exact Path.split_join dir (List.cons_ne_nil _ _) (by simpa using h)

theorem Path.ends_join (dir : Path) {name : String} (h : IsName name) :
    (dir.join ⟨name⟩).Ends dir.openPieces name [] :=
  ⟨by rw [split_join_name dir h], h, rfl⟩

namespace FileSystem

open Wireframe.Path (isIdle IsName)

variable {fs fs' : FileSystem} {path : Path} {bytes : ByteArray} {ps slashes : List String}
  {name : String}

/-! ### Kinds and bytes -/

/-- A path names something of a kind if it is not refused, there are directories all the way, and an
entry of that kind is where it leads. -/
theorem kind?_eq_some_iff {kind : Kind} : fs.kind? path = some kind ↔
    refusal? path = none ∧ (∀ place ∈ fs.wayTo path, fs.entry? place = some .directory) ∧
      (fs.entry? (fs.place path)).map Entry.kind = some kind := by
  rw [kind?]
  constructor
  · intro h
    split at h
    · rename_i found hfind
      obtain ⟨hrefusal, hway, hplace, hentry⟩ := find_eq_ok_iff.mp hfind
      refine ⟨hrefusal, hway, ?_⟩
      rw [← hplace, hentry, Option.map_some, h]
    · cases h
  · rintro ⟨hrefusal, hway, hkind⟩
    obtain ⟨entry, hentry, rfl⟩ := Option.map_eq_some_iff.mp hkind
    rw [find_eq_ok_iff.mpr ⟨hrefusal, hway, rfl, hentry⟩]

theorem kind_eq_directory_iff {entry : Entry} : entry.kind = .directory ↔ entry = .directory := by
  cases entry <;> simp [Entry.kind]

theorem kind?_eq_directory_iff : fs.kind? path = some .directory ↔
    refusal? path = none ∧ (∀ place ∈ fs.wayTo path, fs.entry? place = some .directory) ∧
      fs.entry? (fs.place path) = some .directory := by
  simp [kind?_eq_some_iff, kind_eq_directory_iff]

theorem kind?_eq_directory_iff_through : fs.kind? path = some .directory ↔
    refusal? path = none ∧ ∀ place ∈ fs.through path, fs.entry? place = some .directory := by
  rw [kind?_eq_directory_iff, through, List.forall_mem_append, List.forall_mem_singleton]

/-- A path names a file exactly if the bytes of the file can be read. -/
theorem kind?_eq_file_iff : fs.kind? path = some .file ↔
    ∃ bytes, fs.readBytes path = .ok bytes := by
  rw [kind?, readBytes]
  match fs.find path with
  | .error _ => simp
  | .ok (_, .directory) => simp [Entry.kind]
  | .ok (_, .file _) => simp [Entry.kind]

/-- The bytes that are read are those of the file where the path leads, with directories all the
way. -/
theorem readBytes_eq_ok_iff : fs.readBytes path = .ok bytes ↔
    refusal? path = none ∧ (∀ place ∈ fs.wayTo path, fs.entry? place = some .directory) ∧
      fs.entry? (fs.place path) = some (.file bytes) := by
  have hfind : fs.readBytes path = .ok bytes ↔
      ∃ found, fs.find path = .ok (found, .file bytes) := by
    rw [readBytes]
    split <;> simp_all
  rw [hfind]
  constructor
  · rintro ⟨found, h⟩
    obtain ⟨hrefusal, hway, rfl, hentry⟩ := find_eq_ok_iff.mp h
    exact ⟨hrefusal, hway, hentry⟩
  · rintro ⟨hrefusal, hway, hentry⟩
    exact ⟨_, find_eq_ok_iff.mpr ⟨hrefusal, hway, rfl, hentry⟩⟩

/-- A path that leads to a file ends in a name, and no slash follows. -/
theorem ends_of_readBytes (hfs : fs.WellFormed) (h : fs.readBytes path = .ok bytes) :
    ∃ ps name, path.Ends ps name [] := by
  obtain ⟨hrefusal, hway, hentry⟩ := readBytes_eq_ok_iff.mp h
  rw [wayTo] at hway
  rw [place] at hentry
  rcases List.eq_nil_or_concat path.split.2 with hnil | ⟨init, last, hlast⟩
  · rw [hnil, reach, List.foldl_nil, hfs.directory_origin] at hentry
    cases hentry
  · rw [List.concat_eq_append] at hlast
    rw [hlast, way_concat] at hway
    have habove := hway _ (List.mem_append_right _ (List.mem_singleton.mpr rfl))
    rw [hlast, reach_append, reach, List.foldl_cons, List.foldl_nil, step] at hentry
    split at hentry
    · rw [habove] at hentry
      cases hentry
    · rename_i hidle
      split at hentry
      · rw [hfs.directory_dropLast (by rw [habove]; exact Option.some_ne_none _)] at hentry
        cases hentry
      · rename_i hup
        refine ⟨init, last, hlast, ?_, rfl⟩
        exact (refusal?_eq_none_iff.mp hrefusal).1.isName (by simp [hlast]) (by simpa using hidle)
          (by simpa using hup)

/-! ### Sites -/

/-- Pieces one after the other are followed from place to place. -/
theorem follow_append (location : Location) (ps qs : List String) :
    fs.follow location (ps ++ qs) = (fs.follow location ps).bind fun l => fs.follow l qs := by
  induction ps generalizing location with
  | nil => rfl
  | cons p ps ih =>
    rw [List.cons_append, follow_cons, follow_cons]
    match fs.entry? location with
    | none => rfl
    | some (.file _) => rfl
    | some .directory => exact ih _

/-- To drop slashes is to drop the empty pieces at the end. -/
theorem dropSlashes_eq (ps : List String) : dropSlashes ps = ps.rdropWhile (· == "") := by
  induction ps with
  | nil => rfl
  | cons p ps ih =>
    rewrite [dropSlashes, Path.rdropWhile_cons, ih]
    cases ps.rdropWhile (· == "") <;> rfl

/-- Without the slashes at the end, a path that ends in a name has the name as its last piece. -/
theorem dropSlashes_of_ends (h : path.Ends ps name slashes) :
    dropSlashes path.split.2 = ps ++ [name] := by
  have hname : (name == "") = false := (Bool.or_eq_false_iff.mp h.isName.not_idle).1
  rw [dropSlashes_eq, h.pieces, Path.rdropWhile_append_cons (p := (· == "")) hname h.slashes_idle]

/-- Where something is to be made under a name, the directory for it has to be there. -/
theorem site_of_ends (hrefusal : refusal? path = none) (h : path.Ends ps name slashes) :
    fs.site path = (fs.follow (fs.origin path) (ps ++ [name])).map fun location =>
      .place location (!slashes.isEmpty) := by
  have hslashes : decide ((ps ++ [name]).length < path.split.2.length) = !slashes.isEmpty := by
    rw [h.pieces]
    cases slashes <;> simp
  rw [site, hrefusal]
  simp only [dropSlashes_of_ends h, List.getLast?_concat, Option.bind_some, h.isName.component?,
    List.dropLast_concat, hslashes, follow_append]
  cases fs.follow (fs.origin path) ps with
  | error => rfl
  | ok location =>
    simp only [Except.bind, follow_cons, step_name h.isName]
    rcases fs.entry? location with _ | _ | _ <;> rfl

/-- A path whose last piece but for slashes is a name ends in it. -/
theorem exists_ends (hrefusal : refusal? path = none)
    (h : (dropSlashes path.split.2).getLast?.bind Path.component? = some (.name name)) :
    ∃ ps slashes, path.Ends ps name slashes := by
  obtain ⟨slashes, hslashes, hpieces, hnil | ⟨init, last, hinit, -⟩⟩ :=
    Path.exists_rdropWhile_append (· == "") path.split.2
  · rw [dropSlashes_eq, hnil] at h
    cases h
  · rw [dropSlashes_eq, hinit, List.getLast?_concat, Option.bind_some] at h
    rw [hinit, List.append_assoc, List.singleton_append] at hpieces
    rw [Path.component?] at h
    split at h
    · cases h
    · rename_i hidle
      split at h
      · cases h
      · rename_i hup
        cases h
        exact ⟨init, slashes, hpieces, (refusal?_eq_none_iff.mp hrefusal).1.isName
          (by simp [hpieces]) (by simpa using hidle) (by simpa using hup), hslashes⟩

/-- A path that does not end in a name says that something is to be made only where there is a
directory. -/
theorem site_of_not_ends (hrefusal : refusal? path = none)
    (h : ∀ ps name slashes, ¬ path.Ends ps name slashes) :
    fs.site path = (fs.find path).map fun _ => .directory := by
  rw [site, hrefusal]
  simp only
  split
  · rename_i name hlast
    obtain ⟨ps, slashes, hends⟩ := exists_ends hrefusal hlast
    exact absurd hends (h ps name slashes)
  · cases fs.find path <;> rfl

theorem all_isIdle (h : slashes.all (· == "") = true) : slashes.all isIdle = true :=
  List.all_eq_true.mpr fun s hs => by simp [isIdle, List.all_eq_true.mp h s hs]

/-- A path that ends in a name leads to the place under it. -/
theorem place_of_ends (fs : FileSystem) (h : path.Ends ps name slashes) :
    fs.place path = reach (fs.origin path) ps ++ [name] := by
  rw [place, h.pieces, List.append_cons, reach_append, reach_idle (all_isIdle h.slashes_idle),
    reach_append, reach, List.foldl_cons, step_name h.isName]
  rfl

/-- Where something can be made: at the place that the path leads to, in a directory that is
there. -/
theorem site_eq_place_iff {location : Location} {slash : Bool} :
    fs.site path = .ok (.place location slash) ↔ refusal? path = none ∧
      location = fs.place path ∧ ∃ ps name slashes, path.Ends ps name slashes ∧
        slash = !slashes.isEmpty ∧
        ∀ place ∈ way (fs.origin path) (ps ++ [name]), fs.entry? place = some .directory := by
  constructor
  · intro h
    have hrefusal : refusal? path = none := by
      rw [site] at h
      split at h
      · cases h
      · assumption
    by_cases hends : ∃ ps name slashes, path.Ends ps name slashes
    · obtain ⟨ps, name, slashes, hends⟩ := hends
      -- the pieces in front of the name are followed, and the name is put behind where they lead
      rw [site_of_ends hrefusal hends] at h
      cases hfollow : fs.follow (fs.origin path) (ps ++ [name]) with
      | error fault =>
        rw [hfollow] at h
        cases h
      | ok found =>
        rw [hfollow] at h
        obtain ⟨hway, rfl⟩ := follow_eq_ok_iff.mp hfollow
        cases h
        refine ⟨hrefusal, ?_, ps, name, slashes, hends, rfl, hway⟩
        rw [place_of_ends fs hends, reach_append, reach, List.foldl_cons, List.foldl_nil,
          step_name hends.isName]
    · rw [site_of_not_ends hrefusal (by simpa using hends)] at h
      cases hfind : fs.find path <;> rw [hfind] at h <;> cases h
  · rintro ⟨hrefusal, rfl, ps, name, slashes, hends, rfl, hway⟩
    rw [site_of_ends hrefusal hends, follow_eq_ok_iff.mpr ⟨hway, rfl⟩, place_of_ends fs hends,
      reach_append]
    simp [Except.map, reach, step_name hends.isName]

/-! ### Names in a directory -/

theorem origin_join (fs : FileSystem) (dir : Path) (h : IsName name) :
    fs.origin (dir.join ⟨name⟩) = fs.origin dir :=
  origin_of_split (by rw [Path.split_join_name dir h])

/-- A name in a directory is right below the place of the directory. -/
theorem place_join (fs : FileSystem) (dir : Path) (h : IsName name) :
    fs.place (dir.join ⟨name⟩) = fs.place dir ++ [name] := by
  rw [place_of_ends fs (Path.ends_join dir h), origin_join fs dir h, reach_openPieces]

/-! ### Writing -/

theorem place_ne_nil (fs : FileSystem) (h : path.Ends ps name slashes) : fs.place path ≠ [] := by
  rw [place_of_ends fs h]
  exact List.concat_ne_nil _ _

/-- A file is written or nothing changes. -/
theorem writeBytes_cases (fs : FileSystem) (path : Path) (bytes : ByteArray) :
    (∃ fault, fs.writeBytes path bytes = (.error fault, fs)) ∨
      fs.writeBytes path bytes = (.ok (), fs.put (fs.place path) (.file bytes)) ∧
        refusal? path = none ∧ (∃ ps name, path.Ends ps name []) ∧
        (∀ place ∈ fs.wayTo path, fs.entry? place = some .directory) ∧
        fs.entry? (fs.place path) ≠ some .directory := by
  rw [writeBytes]
  rcases hsite : fs.site path with fault | ⟨location, _ | _⟩ | _
  · exact .inl ⟨fault, rfl⟩
  · obtain ⟨hrefusal, rfl, ps, name, slashes, hends, hslash, hway⟩ := site_eq_place_iff.mp hsite
    obtain rfl : slashes = [] := by simpa using hslash
    by_cases hentry : fs.entry? (fs.place path) = some .directory
    · exact .inl ⟨.isDirectory, by simp only [hentry]⟩
    · refine .inr ⟨?_, hrefusal, ⟨ps, name, hends⟩, by rwa [wayTo, hends.pieces], hentry⟩
      rcases hfound : fs.entry? (fs.place path) with _ | _ | _
      · simp only [hfound]
      · exact absurd hfound hentry
      · simp only [hfound]
  · exact .inl ⟨.isDirectory, rfl⟩
  · exact .inl ⟨.isDirectory, rfl⟩

/-- A file is written at a place in a directory that is there, unless there is a directory at that
place. -/
theorem writeBytes_of_way (hrefusal : refusal? path = none) (hends : path.Ends ps name [])
    (hway : ∀ place ∈ fs.wayTo path, fs.entry? place = some .directory)
    (hentry : fs.entry? (fs.place path) ≠ some .directory) (bytes : ByteArray) :
    fs.writeBytes path bytes = (.ok (), fs.put (fs.place path) (.file bytes)) := by
  rw [wayTo, hends.pieces] at hway
  have hsite : fs.site path = .ok (.place (fs.place path) false) :=
    site_eq_place_iff.mpr ⟨hrefusal, rfl, ps, name, [], hends, rfl, hway⟩
  simp only [writeBytes, hsite]

/-- Writing to a file leaves a tree well formed. -/
protected theorem WellFormed.writeBytes (h : fs.WellFormed) (path : Path) (bytes : ByteArray) :
    (fs.writeBytes path bytes).2.WellFormed := by
  rcases fs.writeBytes_cases path bytes with
    ⟨fault, heq⟩ | ⟨heq, -, ⟨ps, name, hends⟩, hway, hentry⟩
  · rwa [heq]
  · have habove : fs.entry? (reach (fs.origin path) ps) = some .directory := by
      apply hway
      simp [wayTo, hends.pieces, way_concat]
    rw [heq, place_of_ends fs hends]
    rw [place_of_ends fs hends] at hentry
    exact h.put habove hends.isName (.inr hentry)

/-! ### Making one directory -/

/-- A directory is made where nothing was, or nothing changes. -/
theorem makeDirectory_cases (fs : FileSystem) (path : Path) :
    (∃ fault, fs.makeDirectory path = (.error fault, fs)) ∨
      fs.makeDirectory path = (.ok (), fs.put (fs.place path) .directory) ∧
        refusal? path = none ∧ fs.entry? (fs.place path) = none ∧
        ∃ ps name slashes, path.Ends ps name slashes ∧
          ∀ place ∈ way (fs.origin path) (ps ++ [name]), fs.entry? place = some .directory := by
  rw [makeDirectory]
  match hsite : fs.site path with
  | .error fault => exact .inl ⟨fault, rfl⟩
  | .ok .directory => exact .inl ⟨.alreadyExists, rfl⟩
  | .ok (.place location _) =>
    obtain ⟨hrefusal, rfl, ps, name, slashes, hends, -, hway⟩ := site_eq_place_iff.mp hsite
    match hentry : fs.entry? (fs.place path) with
    | some _ => exact .inl ⟨.alreadyExists, by simp only [hentry]⟩
    | none => exact .inr ⟨by simp only [hentry], hrefusal, rfl, ps, name, slashes, hends, hway⟩

/-- Making a directory leaves a tree well formed. -/
protected theorem WellFormed.makeDirectory (h : fs.WellFormed) (path : Path) :
    (fs.makeDirectory path).2.WellFormed := by
  rcases fs.makeDirectory_cases path with
    ⟨fault, heq⟩ | ⟨heq, -, -, ps, name, slashes, hends, hway⟩
  · rwa [heq]
  · have habove : fs.entry? (reach (fs.origin path) ps) = some .directory := by
      apply hway
      simp [way_concat]
    rw [heq, place_of_ends fs hends]
    exact h.put habove hends.isName (.inl rfl)

/-! ### Reading what was written -/

/-- More directories change nothing about files. -/
theorem readBytes_of_grows {places : List Location} (h : fs.Grows places fs')
    (hread : fs.readBytes path = .ok bytes) : fs'.readBytes path = .ok bytes := by
  obtain ⟨hrefusal, hway, hentry⟩ := readBytes_eq_ok_iff.mp hread
  rw [readBytes_eq_ok_iff, h.wayTo_eq, h.place_eq]
  exact ⟨hrefusal, fun p hp => h.entry_of_some (hway p hp), h.entry_of_some hentry⟩

/-- What has been written to a path is read back from it. -/
theorem readBytes_writeBytes (h : fs.writeBytes path bytes = (.ok (), fs')) :
    fs'.readBytes path = .ok bytes := by
  rcases fs.writeBytes_cases path bytes with
    ⟨fault, heq⟩ | ⟨heq, hrefusal, ⟨ps, name, hends⟩, hway, hentry⟩
  · rw [heq] at h
    cases h
  · rw [heq] at h
    cases h
    have hput := entry?_put (place_ne_nil fs hends) fs (.file bytes)
    refine readBytes_eq_ok_iff.mpr ⟨hrefusal, fun p hp => ?_, ?_⟩
    · have hdirectory := hway p hp
      rw [hput, if_neg, hdirectory]
      rintro rfl
      exact hentry hdirectory
    · exact (hput _).trans (if_pos rfl)

end FileSystem

end Wireframe
