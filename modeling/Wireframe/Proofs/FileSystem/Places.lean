import Mathlib.Data.List.Infix
import Wireframe.FileSystem
import Wireframe.Proofs.Path.Names

/-!
# Places that paths lead to

There are no links in a tree, so where a path leads does not depend on what is there: each piece is
a step from one place to another (`FileSystem.step`). What is there decides whether the path can be
followed. It can if there is a directory at every place on the way (`FileSystem.follow_eq_ok_iff`),
and if no file is on the way, then the only fault is that something is missing
(`FileSystem.follow_of_clear`).

A tree is well formed if everything in it is in a directory and has a name. `Grows` says that one
tree is another one with some directories more, and where these are.
-/

namespace Wireframe.FileSystem

open Wireframe.Path (isIdle)

variable {fs fs' : FileSystem} {location : Location} {path : Path}

/-! ### Steps -/

/-- Where a piece of a path leads from a place. -/
def step (location : Location) (piece : String) : Location :=
  if isIdle piece then location
  else if piece == ".." then location.dropLast
  else location ++ [piece]

/-- Where pieces lead from a place. -/
def reach (location : Location) (ps : List String) : Location := ps.foldl step location

/-- The places in which pieces are followed, the one before each of them. -/
def way (location : Location) : List String → List Location
  | [] => []
  | piece :: rest => location :: way (step location piece) rest

/-- The place that a path leads to. -/
def place (fs : FileSystem) (path : Path) : Location := reach (fs.origin path) path.split.2

/-- The places on the way to where a path leads. -/
def wayTo (fs : FileSystem) (path : Path) : List Location := way (fs.origin path) path.split.2

theorem origin_of_split {path' : Path} (h : path.split.1 = path'.split.1) :
    fs.origin path = fs.origin path' := by
  rw [origin, origin, Path.isAbsolute, Path.isAbsolute, h]

theorem step_idle {piece : String} (h : isIdle piece = true) (location : Location) :
    step location piece = location := by
  rw [step, if_pos h]

theorem step_name {name : String} (h : Path.IsName name) (location : Location) :
    step location name = location ++ [name] := by
  simp [step, h.not_idle, h.not_up]

theorem reach_append (location : Location) (ps qs : List String) :
    reach location (ps ++ qs) = reach (reach location ps) qs := List.foldl_append

/-- Pieces that say nothing lead nowhere else. -/
theorem reach_idle {idles : List String} (h : idles.all isIdle = true) (location : Location) :
    reach location idles = location := by
  induction idles with
  | nil => rfl
  | cons p ps ih =>
    rw [List.all_cons, Bool.and_eq_true] at h
    rw [reach, List.foldl_cons, step_idle h.1]
    exact ih h.2

/-- Names lead down to the place that they name. -/
theorem reach_names {ns : List String} (h : ∀ n ∈ ns, Path.IsName n) (location : Location) :
    reach location ns = location ++ ns := by
  induction ns generalizing location with
  | nil => exact (List.append_nil _).symm
  | cons n ns ih =>
    obtain ⟨hn, hns⟩ := List.forall_mem_cons.mp h
    rw [reach, List.foldl_cons, step_name hn]
    exact (ih hns _).trans (List.append_assoc ..)

/-- The places on the way along pieces are those along the first ones and then along the others. -/
theorem way_append (location : Location) (ps qs : List String) :
    way location (ps ++ qs) = way location ps ++ way (reach location ps) qs := by
  induction ps generalizing location with
  | nil => rfl
  | cons p ps ih =>
    rw [List.cons_append, way, ih, way, List.cons_append]
    rfl

theorem way_concat (location : Location) (ps : List String) (last : String) :
    way location (ps ++ [last]) = way location ps ++ [reach location ps] := way_append ..

/-- On a way that leads nowhere there is one place only. -/
theorem eq_of_mem_way_idle {idles : List String} (h : idles.all isIdle = true)
    {location place : Location} (hplace : place ∈ way location idles) : place = location := by
  induction idles with
  | nil => exact absurd hplace List.not_mem_nil
  | cons p ps ih =>
    rw [List.all_cons, Bool.and_eq_true] at h
    rw [way, step_idle h.1, List.mem_cons] at hplace
    exact hplace.elim id (ih h.2)

/-- Names lead through the places that lie above where they lead to. -/
theorem mem_way_names {ns : List String} (h : ∀ n ∈ ns, Path.IsName n)
    {location place : Location} : place ∈ way location ns ↔
      ∃ above below, ns = above ++ below ∧ below ≠ [] ∧ place = location ++ above := by
  induction ns generalizing location with
  | nil => simp [way]
  | cons n ns ih =>
    obtain ⟨hn, hns⟩ := List.forall_mem_cons.mp h
    rw [way, step_name hn, List.mem_cons, ih hns]
    constructor
    · rintro (rfl | ⟨above, below, rfl, hbelow, rfl⟩)
      · exact ⟨[], n :: ns, rfl, List.cons_ne_nil _ _, (List.append_nil _).symm⟩
      · exact ⟨n :: above, below, rfl, hbelow, by simp⟩
    · rintro ⟨above, below, heq, hbelow, rfl⟩
      cases above with
      | nil => exact .inl (List.append_nil _)
      | cons n' above =>
        obtain ⟨rfl, rfl⟩ := List.cons.inj heq
        exact .inr ⟨above, below, rfl, hbelow, by simp⟩

/-- Names are appended to the place of the path that they are appended to. -/
theorem reach_openPieces (fs : FileSystem) (path : Path) :
    reach (fs.origin path) path.openPieces = fs.place path := by
  have hidle : [""].all isIdle = true := by decide
  rw [place]
  rcases path.openPieces_cases with hcases | hcases <;> rw [hcases]
  rw [reach_append, reach_idle hidle]

/-- Where a component of a path leads from a place. -/
def stepComponent (location : Location) : Path.Component → Location
  | .root => []
  | .here => location
  | .up => location.dropLast
  | .name name => location ++ [name]

/-- Where pieces lead depends on the components in them only. -/
theorem reach_eq_foldl (location : Location) (ps : List String) :
    reach location ps = (ps.filterMap Path.component?).foldl stepComponent location := by
  induction ps generalizing location with
  | nil => rfl
  | cons p ps ih =>
    rw [reach, List.foldl_cons]
    refine (ih (step location p)).trans ?_
    rw [List.filterMap_cons, Path.component?, step]
    split
    · rfl
    · split <;> rfl

theorem place_eq_foldl (fs : FileSystem) (path : Path) :
    fs.place path = path.components.foldl stepComponent fs.workingDirectory := by
  rw [place, reach_eq_foldl, Path.components, List.foldl_append, origin, Path.isAbsolute]
  cases path.split.1 <;> rfl

/-- Paths with the same components lead to the same place. -/
theorem place_eq_of_components (fs : FileSystem) {path path' : Path}
    (h : path.components = path'.components) : fs.place path = fs.place path' := by
  rw [place_eq_foldl, place_eq_foldl, h]

/-! ### Paths that only lead down -/

/-- A piece that does not go up leads to a place at or below the one where it is followed. -/
theorem prefix_step {piece : String} (h : piece ≠ "..") (location : Location) :
    location <+: step location piece := by
  rw [step, if_neg (by simpa using h : ¬(piece == "..") = true)]
  split
  · exact List.prefix_refl _
  · exact List.prefix_append ..

/-- Pieces that do not go up lead to a place at or below the one where they are followed. -/
theorem prefix_reach {ps : List String} (h : ∀ p ∈ ps, p ≠ "..") (location : Location) :
    location <+: reach location ps := by
  induction ps generalizing location with
  | nil => exact List.prefix_refl _
  | cons p ps ih =>
    obtain ⟨hp, hps⟩ := List.forall_mem_cons.mp h
    exact (prefix_step hp location).trans (ih hps _)

/-- Without `..`, pieces lead through places above the one that they lead to. -/
theorem prefix_of_mem_way {ps : List String} (h : ∀ p ∈ ps, p ≠ "..") {location place : Location}
    (hplace : place ∈ way location ps) : place <+: reach location ps := by
  induction ps generalizing location with
  | nil => exact absurd hplace List.not_mem_nil
  | cons p ps ih =>
    rw [way, List.mem_cons] at hplace
    rcases hplace with rfl | hplace
    · exact prefix_reach h _
    · exact ih (List.forall_mem_cons.mp h).2 hplace

/-- Pieces that do not go up lead down along the names among them. -/
theorem reach_of_down {ps : List String} (h : ∀ p ∈ ps, p ≠ "..") (location : Location) :
    reach location ps = location ++ ps.filter (!isIdle ·) := by
  induction ps generalizing location with
  | nil => exact (List.append_nil _).symm
  | cons p ps ih =>
    obtain ⟨hp, hps⟩ := List.forall_mem_cons.mp h
    rw [reach, List.foldl_cons]
    refine (ih hps _).trans ?_
    cases hidle : isIdle p with
    | true => rw [step_idle hidle, List.filter_cons_of_neg (by simp [hidle])]
    | false => simp [step, hidle, hp]

/-- Pieces that do not go up are names, but for those that say nothing. -/
theorem filterMap_component?_of_down {ps : List String} (h : ∀ p ∈ ps, p ≠ "..") :
    ps.filterMap Path.component? = (ps.filter (!isIdle ·)).map .name := by
  induction ps with
  | nil => rfl
  | cons p ps ih =>
    obtain ⟨hp, hps⟩ := List.forall_mem_cons.mp h
    rw [List.filterMap_cons, ih hps, Path.component?]
    cases hidle : isIdle p with
    | true => simp [hidle]
    | false => simp [hidle, hp]

/-- Paths that start alike and only lead down are the same if they lead to the same place. -/
theorem components_eq_of_place {path path' : Path} (hstart : path.split.1 = path'.split.1)
    (h : ∀ p ∈ path.split.2, p ≠ "..") (h' : ∀ p ∈ path'.split.2, p ≠ "..")
    (hplace : fs.place path = fs.place path') : path.components = path'.components := by
  rw [place, place, origin_of_split hstart, reach_of_down h, reach_of_down h',
    List.append_cancel_left_eq] at hplace
  rw [Path.components, Path.components, hstart, filterMap_component?_of_down h,
    filterMap_component?_of_down h', hplace]

/-- The places that a path leads through, with the one that it leads to. -/
def through (fs : FileSystem) (path : Path) : List Location := fs.wayTo path ++ [fs.place path]

theorem place_mem_through (fs : FileSystem) (path : Path) : fs.place path ∈ fs.through path :=
  List.mem_append_right _ (List.mem_singleton.mpr rfl)

/-- A path that does not go up passes through places above the one that it leads to. -/
theorem prefix_of_mem_through {fs : FileSystem} {path : Path} (h : ∀ p ∈ path.split.2, p ≠ "..")
    {place : Location} (hplace : place ∈ fs.through path) : place <+: fs.place path := by
  rw [through, List.mem_append, List.mem_singleton] at hplace
  exact hplace.elim (prefix_of_mem_way h) fun heq => heq ▸ List.prefix_refl _

/-! ### Entries -/

theorem entry?_nil (fs : FileSystem) : fs.entry? [] = some .directory := rfl

/-- An entry that is put at a place is there, and other places hold what they held. -/
theorem entry?_put (h : location ≠ []) (fs : FileSystem) (entry : Entry) (place : Location) :
    entry? (fs.put location entry) place =
      if place = location then some entry else fs.entry? place := by
  by_cases hnil : place = []
  · rw [hnil, entry?_nil, entry?_nil, if_neg (Ne.symm h)]
  · have hempty : place.isEmpty = false := by simpa using hnil
    have hcompare : compare location place = .eq ↔ place = location := by
      rw [Std.compare_eq_iff_eq, eq_comm]
    simp [ entry?, hempty, put, Std.ExtTreeMap.getElem?_insert, hcompare]

/-- Whether no file is at any of some places. -/
def Clear (fs : FileSystem) (places : List Location) : Prop :=
  ∀ place ∈ places, ∀ bytes, fs.entry? place ≠ some (.file bytes)

/-- At a place that is clear there is a directory or nothing. -/
theorem Clear.directory_or_none {places : List Location} (h : fs.Clear places)
    {place : Location} (hplace : place ∈ places) :
    fs.entry? place = some .directory ∨ fs.entry? place = none := by
  cases hentry : fs.entry? place with
  | none => exact .inr rfl
  | some entry =>
    cases entry with
    | directory => exact .inl rfl
    | file bytes => exact absurd hentry (h place hplace bytes)

/-! ### Following -/

/-- A piece is followed in a directory, and the others from where it leads. -/
theorem follow_cons (fs : FileSystem) (location : Location) (piece : String) (rest : List String) :
    fs.follow location (piece :: rest) = match fs.entry? location with
      | none => .error .notFound
      | some (.file _) => .error .notDirectory
      | some .directory => fs.follow (step location piece) rest := by
  rw [follow]
  cases fs.entry? location with
  | none => rfl
  | some entry =>
    cases entry with
    | file bytes => rfl
    | directory =>
      -- the piece decides where the rest is followed from
      rw [step]
      dsimp only
      split
      · rfl
      · split <;> rfl

/-- Pieces can be followed if there are directories to follow them in. -/
theorem follow_eq_ok_iff {ps : List String} {found : Location} :
    fs.follow location ps = .ok found ↔
      (∀ place ∈ way location ps, fs.entry? place = some .directory) ∧
        found = reach location ps := by
  induction ps generalizing location with
  | nil => simp [follow, way, reach, eq_comm]
  | cons p ps ih =>
    rw [follow_cons, way, List.forall_mem_cons]
    split <;> rename_i hentry <;> rw [hentry]
    · simp
    · simp
    · rw [ih]
      simp [reach]

/-- Where no file is on the way, pieces can be followed or something is missing. -/
theorem follow_of_clear {ps : List String} (h : fs.Clear (way location ps)) :
    fs.follow location ps = .ok (reach location ps) ∨
      fs.follow location ps = .error .notFound := by
  induction ps generalizing location with
  | nil => exact .inl rfl
  | cons p ps ih =>
    obtain ⟨hfirst, hrest⟩ := List.forall_mem_cons.mp h
    rw [follow_cons]
    rcases h.directory_or_none (List.mem_cons_self ..) with hentry | hentry <;> rw [hentry]
    · exact ih hrest
    · exact .inr rfl

/-- A text can be a path of something if it is not empty and holds no null character. -/
theorem refusal?_eq_none_iff : refusal? path = none ↔ path.Clean ∧ path.text ≠ "" := by
  rw [refusal?, Path.Clean, Path.isEmpty]
  split
  · simp_all
  · split <;> simp_all

/-- What a path names is at the place that it leads to, with directories all the way. -/
theorem find_eq_ok_iff {found : Location} {entry : Entry} :
    fs.find path = .ok (found, entry) ↔ refusal? path = none ∧
      (∀ place ∈ fs.wayTo path, fs.entry? place = some .directory) ∧
        found = fs.place path ∧ fs.entry? found = some entry := by
  rw [find]
  split
  · simp_all
  · rename_i hrefusal
    rw [wayTo, place]
    cases hfollow : fs.follow (fs.origin path) path.split.2 with
    | error fault =>
      refine ⟨nofun, fun h => ?_⟩
      have hok := follow_eq_ok_iff.mpr ⟨h.2.1, rfl⟩
      rw [hfollow] at hok
      cases hok
    | ok location =>
      obtain ⟨hway, rfl⟩ := follow_eq_ok_iff.mp hfollow
      -- the way is clear, and what counts is what stands at its end
      simp only [hrefusal, true_and, iff_true_intro hway]
      cases hentry : fs.entry? (reach (fs.origin path) path.split.2) with
      | none =>
        refine ⟨nofun, ?_⟩
        rintro ⟨rfl, hsome⟩
        rw [hentry] at hsome
        cases hsome
      | some entry' =>
        constructor
        · intro h
          cases h
          exact ⟨rfl, hentry⟩
        · rintro ⟨rfl, hsome⟩
          rw [hentry] at hsome
          cases hsome
          rfl

/-- Where no file is on the way, what a path names is found or something is missing. -/
theorem find_of_clear (hrefusal : refusal? path = none) (h : fs.Clear (fs.wayTo path)) :
    (∃ entry, fs.find path = .ok (fs.place path, entry)) ∨ fs.find path = .error .notFound := by
  rw [find, hrefusal]
  rcases follow_of_clear h with hfollow | hfollow <;> simp only [hfollow]
  · rw [place]
    cases fs.entry? (reach (fs.origin path) path.split.2) with
    | none => exact .inr rfl
    | some entry => exact .inl ⟨entry, rfl⟩
  · exact .inr trivial

/-! ### Well-formed trees -/

/-- Whether everything in a tree has a name and is in a directory, as the working directory is. -/
structure WellFormed (fs : FileSystem) : Prop where
  working : fs.entry? fs.workingDirectory = some .directory
  inside : ∀ location name, fs.entry? (location ++ [name]) ≠ none →
    fs.entry? location = some .directory
  named : ∀ location ∈ fs.entries, location ≠ [] ∧ ∀ name ∈ location, Path.IsName name

namespace WellFormed

/-- What lies above something is a directory. -/
theorem directory_above (h : fs.WellFormed) {rest : Location} (hne : rest ≠ [])
    (hentry : fs.entry? (location ++ rest) ≠ none) : fs.entry? location = some .directory := by
  induction rest using List.reverseRecOn with
  | nil => exact absurd rfl hne
  | append_singleton rest name ih =>
    rw [← List.append_assoc] at hentry
    have hrest := h.inside _ _ hentry
    by_cases hnil : rest = []
    · rwa [hnil, List.append_nil] at hrest
    · exact ih hnil (by rw [hrest]; exact Option.some_ne_none _)

/-- Right above an entry there is a directory. -/
theorem directory_dropLast (h : fs.WellFormed) (hentry : fs.entry? location ≠ none) :
    fs.entry? location.dropLast = some .directory := by
  rcases List.eq_nil_or_concat location with rfl | ⟨init, last, rfl⟩
  · exact fs.entry?_nil
  · rw [List.concat_eq_append] at hentry ⊢
    rw [List.dropLast_concat]
    exact h.inside _ _ hentry

/-- Every path starts in a directory. -/
theorem directory_origin (h : fs.WellFormed) (path : Path) :
    fs.entry? (fs.origin path) = some .directory := by
  rw [origin]
  split
  · exact fs.entry?_nil
  · exact h.working

/-- The places where something is have names all the way down. -/
theorem isName (h : fs.WellFormed) (hentry : fs.entry? location ≠ none) :
    ∀ name ∈ location, Path.IsName name := by
  cases location with
  | nil => exact fun _ hname => absurd hname List.not_mem_nil
  | cons first rest =>
    refine (h.named _ (Std.ExtTreeMap.mem_iff_isSome_getElem?.mpr ?_)).2
    rwa [← Option.ne_none_iff_isSome]

/-- A well-formed tree is determined by what its places hold. -/
protected theorem ext (h : fs.WellFormed) (h' : fs'.WellFormed)
    (hworking : fs.workingDirectory = fs'.workingDirectory)
    (hentry : ∀ place, fs.entry? place = fs'.entry? place) : fs = fs' := by
  have hentries : fs.entries = fs'.entries := by
    apply Std.ExtTreeMap.ext_getElem?
    intro place
    cases place with
    | nil =>
      rw [Std.ExtTreeMap.getElem?_eq_none fun hmem => (h.named _ hmem).1 rfl,
        Std.ExtTreeMap.getElem?_eq_none fun hmem => (h'.named _ hmem).1 rfl]
    | cons first rest => exact hentry (first :: rest)
  cases fs
  cases fs'
  simp_all

/-- An entry can be put into a directory, in place of anything but a directory. -/
protected theorem put (h : fs.WellFormed) {name : String} {entry : Entry}
    (hlocation : fs.entry? location = some .directory) (hname : Path.IsName name)
    (hentry : entry = .directory ∨ fs.entry? (location ++ [name]) ≠ some .directory) :
    (fs.put (location ++ [name]) entry).WellFormed := by
  have hput := entry?_put (List.concat_ne_nil name location) fs entry
  -- a directory is one afterwards too
  have hkept {place : Location} (hplace : fs.entry? place = some .directory) :
      entry? (fs.put (location ++ [name]) entry) place = some .directory := by
    rw [hput]
    split
    · rename_i heq
      rw [heq] at hplace
      rw [hentry.resolve_right (not_not_intro hplace)]
    · exact hplace
  refine ⟨hkept h.working, fun above last hlast => ?_, fun place hplace => ?_⟩
  · rw [hput] at hlast
    split at hlast
    · rename_i heq
      rw [(List.append_singleton_inj.mp heq).1]
      exact hkept hlocation
    · exact hkept (h.inside _ _ hlast)
  · rw [put, Std.ExtTreeMap.mem_insert, Std.compare_eq_iff_eq] at hplace
    rcases hplace with rfl | hplace
    · refine ⟨List.concat_ne_nil _ _, fun n hn => ?_⟩
      rcases List.mem_append.mp hn with hn | hn
      · exact h.isName (by rw [hlocation]; exact Option.some_ne_none _) n hn
      · rwa [List.mem_singleton.mp hn]
    · exact h.named place hplace

end WellFormed

/-- The tree with nothing in it but the working directory holds the directories above that. -/
theorem entry?_empty {workingDirectory : Location} (place : Location) :
    entry? (FileSystem.empty workingDirectory) place =
      if place <+: workingDirectory then some .directory else none := by
  -- the directories are made one by one: after so many of them there are those above that depth
  suffices h : ∀ count ≤ workingDirectory.length, entry? ((List.range count).foldl
      (fun fs depth => fs.put (workingDirectory.take (depth + 1)) .directory)
      (⟨∅, workingDirectory⟩ : FileSystem)) place =
        if place <+: workingDirectory.take count then some .directory else none by
    have := h _ le_rfl
    rwa [List.take_length] at this
  intro count hcount
  induction count with
  | zero =>
    rw [List.take_zero]
    cases place with
    | nil => rfl
    | cons first rest => simp [ entry?]
  | succ count ih =>
    rw [List.range_succ, List.foldl_append, List.foldl_cons, List.foldl_nil, entry?_put,
      ih (Nat.le_of_succ_le hcount)]
    · have hstarts : place <+: workingDirectory.take (count + 1) ↔
          place = workingDirectory.take (count + 1) ∨ place <+: workingDirectory.take count := by
        rw [List.take_succ_eq_append_getElem (by omega)]
        exact List.prefix_concat_iff
      by_cases heq : place = workingDirectory.take (count + 1)
      · rw [if_pos heq, if_pos (hstarts.mpr (.inl heq))]
      · rw [if_neg heq]
        simp only [hstarts, heq, false_or]
    · intro hnil
      rw [List.take_eq_nil_iff] at hnil
      rcases hnil with h | h
      · cases h
      · simp [h] at hcount

/-- An empty tree is well formed if the working directory has names all the way down. -/
theorem wellFormed_empty {workingDirectory : Location}
    (h : ∀ name ∈ workingDirectory, Path.IsName name) :
    (FileSystem.empty workingDirectory).WellFormed := by
  have hfold : (FileSystem.empty workingDirectory).workingDirectory = workingDirectory ∧
      ∀ location ∈ (FileSystem.empty workingDirectory).entries,
        location ≠ [] ∧ ∀ name ∈ location, Path.IsName name := by
    refine List.foldlRecOn (motive := fun fs : FileSystem =>
      fs.workingDirectory = workingDirectory ∧
      ∀ location ∈ fs.entries, location ≠ [] ∧ ∀ name ∈ location, Path.IsName name) _ _
      ⟨rfl, fun _ hmem => absurd hmem Std.ExtTreeMap.not_mem_empty⟩ ?_
    rintro fs ⟨hworking, hnamed⟩ depth hdepth
    refine ⟨hworking, fun location hmem => ?_⟩
    rw [put, Std.ExtTreeMap.mem_insert, Std.compare_eq_iff_eq] at hmem
    rcases hmem with rfl | hmem
    · refine ⟨fun hnil => ?_, fun name hname => h name (List.mem_of_mem_take hname)⟩
      have hlength := congrArg List.length hnil
      rw [List.length_take, List.length_nil] at hlength
      rw [List.mem_range] at hdepth
      omega
    · exact hnamed location hmem
  refine ⟨?_, fun location name hentry => ?_, hfold.2⟩
  · rw [entry?_empty, hfold.1, if_pos (List.prefix_refl _)]
  · rw [entry?_empty] at hentry ⊢
    split at hentry
    · rename_i hstarts
      rw [if_pos ((List.prefix_append ..).trans hstarts)]
    · exact absurd rfl hentry

/-! ### Growing trees -/

/-- Whether a tree is another with more directories, which are at given places. -/
structure Grows (fs : FileSystem) (places : List Location) (fs' : FileSystem) : Prop where
  workingDirectory : fs'.workingDirectory = fs.workingDirectory
  entry : ∀ place, fs'.entry? place = fs.entry? place ∨
    place ∈ places ∧ fs.entry? place = none ∧ fs'.entry? place = some .directory

namespace Grows

variable {places places' : List Location}

protected theorem refl (fs : FileSystem) (places : List Location) : fs.Grows places fs :=
  ⟨rfl, fun _ => .inl rfl⟩

/-- A tree that has grown twice at given places has grown at these places. -/
protected theorem trans {fs'' : FileSystem} (h : fs.Grows places fs')
    (h' : fs'.Grows places fs'') : fs.Grows places fs'' := by
  refine ⟨h'.workingDirectory.trans h.workingDirectory, fun place => ?_⟩
  rcases h.entry place with hsame | ⟨hmem, hnone, hmade⟩ <;>
    rcases h'.entry place with hsame' | ⟨hmem', hnone', hmade'⟩
  · exact .inl (hsame'.trans hsame)
  · exact .inr ⟨hmem', hsame ▸ hnone', hmade'⟩
  · exact .inr ⟨hmem, hnone, hsame'.trans hmade⟩
  · exact .inr ⟨hmem, hnone, hmade'⟩

protected theorem mono (h : fs.Grows places fs') (hsub : places ⊆ places') :
    fs.Grows places' fs' :=
  ⟨h.workingDirectory, fun place => (h.entry place).imp_right (And.imp_left (@hsub place))⟩

/-- What was there is still there. -/
theorem entry_of_some (h : fs.Grows places fs') {entry : Entry}
    (hentry : fs.entry? location = some entry) : fs'.entry? location = some entry := by
  rcases h.entry location with hsame | ⟨-, hnone, -⟩
  · rw [hsame, hentry]
  · rw [hnone] at hentry
    cases hentry

/-- What is not a directory was there before. -/
theorem entry_file (h : fs.Grows places fs') {bytes : ByteArray} :
    fs'.entry? location = some (.file bytes) ↔ fs.entry? location = some (.file bytes) := by
  refine ⟨fun hfile => ?_, h.entry_of_some⟩
  rcases h.entry location with hsame | ⟨-, -, hmade⟩
  · rw [← hsame, hfile]
  · rw [hmade] at hfile
    cases hfile

/-- Where paths say that directories may be new, a place that is not as it was is that of a path
which had nothing at it. -/
theorem exists_made {paths : List Path} (h : fs.Grows (paths.map fs.place) fs')
    (hne : fs'.entry? location ≠ fs.entry? location) :
    ∃ path ∈ paths, location = fs.place path ∧ fs.entry? location = none ∧
      fs'.entry? location = some .directory := by
  obtain ⟨hmem, hnone, hmade⟩ := (h.entry location).resolve_left hne
  obtain ⟨path, hpath, rfl⟩ := List.mem_map.mp hmem
  exact ⟨path, hpath, rfl, hnone, hmade⟩

theorem entry_of_not_mem (h : fs.Grows places fs') (hplace : location ∉ places) :
    fs'.entry? location = fs.entry? location :=
  (h.entry location).resolve_right fun hmade => hplace hmade.1

theorem clear_iff (h : fs.Grows places fs') : fs'.Clear places' ↔ fs.Clear places' := by
  simp only [Clear, ne_eq, h.entry_file]

theorem origin_eq (h : fs.Grows places fs') (path : Path) : fs'.origin path = fs.origin path := by
  rw [origin, origin, h.workingDirectory]

theorem place_eq (h : fs.Grows places fs') (path : Path) : fs'.place path = fs.place path := by
  rw [place, place, h.origin_eq]

theorem wayTo_eq (h : fs.Grows places fs') (path : Path) : fs'.wayTo path = fs.wayTo path := by
  rw [wayTo, wayTo, h.origin_eq]

theorem through_eq (h : fs.Grows places fs') (path : Path) :
    fs'.through path = fs.through path := by
  rw [through, through, h.wayTo_eq, h.place_eq]

end Grows

end Wireframe.FileSystem
