import Wireframe.Proofs.Volume.Following

/-!
# What steps change in a volume

Making directories gives a volume more names, each for a directory to which one of the given paths
leads (`Volume.Grows`). Writing to a file changes what one file holds, and may give one name to a
new file (`Volume.Writes`). What the system says to the steps of a session decides how far they get,
but no step does anything else: directories and then a file are put into place in full, or they are
not, and then no file has lost what it held unless the system stopped the write (`Session.Puts`).
-/

namespace Wireframe

namespace Volume

open Wireframe.Path (isIdle IsName)
open FileSystem (refusal? refusal?_eq_none_iff dropSlashes_of_ends exists_ends all_isIdle)

variable {v v' v'' : Volume} {location : Location} {path : Path} {bytes : ByteArray}
  {dirs : List Path} {number : ℕ}

/-! ### Names and numbers -/

/-- A file does not have the number that is free. -/
theorem ne_fresh (h : v.node? location = some (.file number)) : number ≠ v.fresh := by
  have hmem : number ∈ v.nodes.toList.filterMap fun item => item.2.number? := by
    rw [List.mem_filterMap]
    cases location with
    | nil => cases h
    | cons name rest =>
      exact ⟨(name :: rest, .file number),
        Std.ExtTreeMap.mem_toList_iff_getElem?_eq_some.mpr h, rfl⟩
  have hle := List.le_max?_getD_of_mem hmem (k := 0)
  rw [fresh]
  omega

theorem node?_fill (v : Volume) (number : ℕ) (bytes : ByteArray) (place : Location) :
    (v.fill number bytes).node? place = v.node? place := rfl

/-- A new name for anything but a link changes no other name. -/
theorem Extends.put {node : Node} (hne : location ≠ []) (hnone : v.node? location = none)
    (hnode : ∀ target, node ≠ .link target) : v.Extends (v.put location node) := by
  refine ⟨rfl, fun place node' hnode' => ?_, fun place target hlink => ?_⟩
  · rw [node?_put hne, if_neg, hnode']
    rintro rfl
    rw [hnone] at hnode'
    cases hnode'
  · rw [node?_put hne] at hlink
    split at hlink
    · exact absurd (Option.some.inj hlink) (hnode target)
    · exact hlink

/-! ### Directories -/

/-- Whether a volume is another one with more directories, to which given paths lead. -/
structure Grows (v : Volume) (dirs : List Path) (v' : Volume) : Prop where
  keeps : v.Extends v'
  made : ∀ place, v.node? place = none → v'.node? place ≠ none →
    ∃ dir ∈ dirs, v'.find dir = .ok (place, .directory)
  contents : v'.contents = v.contents

namespace Grows

protected theorem refl (v : Volume) (dirs : List Path) : v.Grows dirs v :=
  ⟨.refl v, fun _ hnone hnode => absurd hnone hnode, rfl⟩

/-- Growing by some directories and then by others is growing by all of them. -/
protected theorem trans (h : v.Grows dirs v') (h' : v'.Grows dirs v'') : v.Grows dirs v'' := by
  refine ⟨h.keeps.trans h'.keeps, fun place hnone hnode => ?_, h'.contents.trans h.contents⟩
  by_cases hbetween : v'.node? place = none
  · exact h'.made place hbetween hnode
  · obtain ⟨dir, hdir, hfind⟩ := h.made place hnone hbetween
    exact ⟨dir, hdir, h'.keeps.find hfind⟩

/-- More directories may be listed than have been made. -/
protected theorem mono {more : List Path} (h : v.Grows dirs v') (hsub : dirs ⊆ more) :
    v.Grows more v' := by
  refine ⟨h.keeps, fun place hnone hnode => ?_, h.contents⟩
  obtain ⟨dir, hdir, hfind⟩ := h.made place hnone hnode
  exact ⟨dir, hsub hdir, hfind⟩

end Grows

/-- Something is made under a name in the directory to which the pieces in front of it lead. -/
theorem site_eq_place {slash : Bool} (h : v.site path = .ok (.place location slash)) :
    refusal? path = none ∧ ∃ ps name slashes directory, path.Ends ps name slashes ∧
      slash = !slashes.isEmpty ∧ v.Leads linkLimit (v.origin path) ps directory ∧
      v.node? directory = some .directory ∧ location = directory ++ [name] := by
  rw [site] at h
  -- every way to fail ends the case at once; one is left, in which the name is put behind the
  -- directory
  split at h
  · cases h
  · next hrefusal =>
    dsimp only at h
    split at h
    · next name hlast =>
      obtain ⟨ps, slashes, hends⟩ := exists_ends hrefusal hlast
      rw [dropSlashes_of_ends hends, List.dropLast_concat] at h
      split at h
      · cases h
      · next directory hfollow =>
        split at h
        · cases h
        · cases h
        · cases h
        · next hdirectory =>
          have hslash : decide ((ps ++ [name]).length < path.split.2.length) = !slashes.isEmpty := by
            rw [hends.pieces]
            cases slashes <;> simp
          rw [hslash] at h
          cases h
          exact ⟨hrefusal, ps, name, slashes, directory, hends, rfl,
            follow_eq_ok_iff.mp hfollow, hdirectory, rfl⟩
    · split at h <;> cases h

/-- A directory is made where nothing was, and the path leads to it, or nothing changes. -/
theorem makeDirectory_cases (v : Volume) (path : Path) :
    (∃ fault, v.makeDirectory path = (.error fault, v)) ∨
      ∃ place ≠ [], v.node? place = none ∧
        v.makeDirectory path = (.ok (), v.put place .directory) ∧
        (v.put place .directory).find path = .ok (place, .directory) := by
  rw [makeDirectory]
  match hsite : v.site path with
  | .error fault => exact .inl ⟨fault, rfl⟩
  | .ok .directory => exact .inl ⟨.alreadyExists, rfl⟩
  | .ok (.place place _) =>
    match hnode : v.node? place with
    | some _ => exact .inl ⟨.alreadyExists, by simp only [hnode]⟩
    | none =>
      obtain ⟨hrefusal, ps, name, slashes, directory, hends, -, hleads, hdirectory, rfl⟩ :=
        site_eq_place hsite
      have hne : directory ++ [name] ≠ [] := List.concat_ne_nil _ _
      have hgrown : v.Extends (v.put (directory ++ [name]) .directory) := .put hne hnode nofun
      have hmade : (v.put (directory ++ [name]) .directory).node? (directory ++ [name]) =
          some .directory := by
        rw [node?_put hne, if_pos rfl]
      refine .inr ⟨_, hne, hnode, by simp only [hnode], find_eq_ok_iff.mpr ⟨hrefusal, ?_, hmade⟩⟩
      -- the name is that of a directory now, and behind it there are only slashes
      rw [locate_eq_ok_iff, hends.pieces, hgrown.origin]
      refine (hgrown.leads hleads).append fun links => .name (hgrown.kept _ _ hdirectory)
        hends.isName.not_idle hends.isName.not_up ?_ (.idles hmade (all_isIdle hends.slashes_idle))
      intro target
      rw [hmade]
      exact nofun

/-- Making a directory changes nothing but the place that the path leads to. -/
theorem makeDirectory_grows (v : Volume) (path : Path) :
    v.Grows [path] (v.makeDirectory path).2 := by
  rcases v.makeDirectory_cases path with ⟨fault, heq⟩ | ⟨place, hne, hnone, heq, hfind⟩ <;> rw [heq]
  · exact .refl v _
  · refine ⟨.put hne hnone nofun, fun other hother hnode => ?_, rfl⟩
    obtain rfl : other = place := by
      by_contra hdifferent
      rw [node?_put hne, if_neg hdifferent] at hnode
      exact hnode hother
    exact ⟨path, List.mem_singleton.mpr rfl, hfind⟩

/-! ### Files -/

/-- Whether a volume is another one in which bytes have been put into the file at a place, which may
be a new one. -/
structure Writes (v : Volume) (location : Location) (number : ℕ) (bytes : ByteArray)
    (v' : Volume) : Prop where
  keeps : v.Extends v'
  node : v'.node? location = some (.file number)
  other : ∀ place ≠ location, v'.node? place = v.node? place
  new : v.node? location = none → ∀ place, v.node? place ≠ some (.file number)
  filled : v'.contents number = bytes
  contents : ∀ n ≠ number, v'.contents n = v.contents n

/-- Where a file is, or may be made, writing changes one content and nothing else. -/
theorem exists_writes (hne : location ≠ []) (h : v.node? location = none ∨
    ∃ number, v.node? location = some (.file number)) (bytes : ByteArray) :
    ∃ number, v.Writes location number bytes (v.write location bytes) := by
  rcases h with hnone | ⟨number, hfile⟩
  · have hwrite : v.write location bytes =
        (v.put location (.file v.fresh)).fill v.fresh bytes := by
      rw [write, hnone]
    rw [hwrite]
    have hput := node?_put hne v (.file v.fresh)
    have hextends : v.Extends (v.put location (.file v.fresh)) := .put hne hnone nofun
    exact ⟨v.fresh, ⟨hextends.workingDirectory, hextends.kept, hextends.link⟩,
      (hput location).trans (if_pos rfl), fun place hplace => (hput place).trans (if_neg hplace),
      fun _ place hplace => ne_fresh hplace rfl, if_pos rfl, fun n hn => if_neg hn⟩
  · have hwrite : v.write location bytes = v.fill number bytes := by rw [write, hfile]
    rw [hwrite]
    refine ⟨number, ⟨rfl, fun _ _ h => h, fun _ _ h => h⟩, hfile, fun _ _ => rfl,
      fun hnone => ?_, if_pos rfl, fun n hn => if_neg hn⟩
    rw [hfile] at hnone
    cases hnone

/-- A file is written where its path leads, and no directory is there. -/
theorem target_eq_ok (h : v.target path = .ok location) :
    refusal? path = none ∧ v.locate path = .ok location ∧ location ≠ [] ∧
      (v.node? location = none ∨ ∃ number, v.node? location = some (.file number)) := by
  rw [target] at h
  split at h
  · cases h
  · cases h
  · cases h
  · next hsite =>
    obtain ⟨hrefusal, -⟩ := site_eq_place hsite
    split at h
    · cases h
    · next found hlocate =>
      split at h
      · next hnone =>
        cases h
        refine ⟨hrefusal, hlocate, ?_, .inl hnone⟩
        rintro rfl
        cases hnone
      · next number hfile =>
        cases h
        refine ⟨hrefusal, hlocate, ?_, .inr ⟨number, hfile⟩⟩
        rintro rfl
        cases hfile
      · cases h
      · cases h

/-- A written file is found under its path. -/
theorem Writes.find (h : v.Writes location number bytes v') (htarget : v.target path = .ok location) :
    v'.find path = .ok (location, .file number) := by
  obtain ⟨hrefusal, hlocate, -, -⟩ := target_eq_ok htarget
  exact find_eq_ok_iff.mpr ⟨hrefusal, h.keeps.locate hlocate, h.node⟩

/-! ### Directories and a file -/

/-- Whether a volume is another one with more directories, to which given paths lead, but for the
file to which one path leads: that file may be new, and may hold something else. -/
structure Touches (v : Volume) (dirs : List Path) (path : Path) (v' : Volume) : Prop where
  keeps : v.Extends v'
  made : ∀ place, v.node? place = none → v'.node? place ≠ none →
    (∃ dir ∈ dirs, v'.find dir = .ok (place, .directory)) ∨
      ∃ number, v'.find path = .ok (place, .file number) ∧
        ∀ other, v.node? other ≠ some (.file number)
  contents : ∀ number, v'.contents number ≠ v.contents number →
    ∃ place, v'.find path = .ok (place, .file number)

/-- Making directories touches no file. -/
theorem Grows.touches (h : v.Grows dirs v') (path : Path) : v.Touches dirs path v' where
  keeps := h.keeps
  made place hnone hnode := .inl (h.made place hnone hnode)
  contents number hne := absurd (congrFun h.contents number) hne

/-- After more directories, a file is written. -/
theorem Grows.write (h : v.Grows dirs v') (hwrites : v'.Writes location number bytes v'')
    (htarget : v'.target path = .ok location) : v.Touches dirs path v'' := by
  have hfind := hwrites.find htarget
  refine ⟨h.keeps.trans hwrites.keeps, fun place hnone hnode => ?_, fun n hne => ?_⟩
  · by_cases hbetween : v'.node? place = none
    · obtain rfl : place = location := by
        by_contra hother
        rw [hwrites.other place hother] at hnode
        exact hnode hbetween
      refine .inr ⟨number, hfind, fun other hother => ?_⟩
      exact hwrites.new hbetween other (h.keeps.kept _ _ hother)
    · obtain ⟨dir, hdir, hfound⟩ := h.made place hnone hbetween
      exact .inl ⟨dir, hdir, hwrites.keeps.find hfound⟩
  · obtain rfl : n = number := by
      by_contra hother
      rw [hwrites.contents n hother, h.contents] at hne
      exact hne rfl
    exact ⟨location, hfind⟩

/-! ### Plain volumes -/

/-- Whether no name is a link, and no two names stand for one file. -/
structure Plain (v : Volume) : Prop where
  no_link : ∀ place target, v.node? place ≠ some (.link target)
  one_name : ∀ place place' number, v.node? place = some (.file number) →
    v.node? place' = some (.file number) → place = place'

/-- A new file is the one to which the path leads. -/
theorem Touches.find_of_new (h : v.Touches dirs path v') {place : Location} {number : ℕ}
    (hnone : v.node? place = none) (hfile : v'.node? place = some (.file number)) :
    v'.find path = .ok (place, .file number) ∧
      ∀ other, v.node? other ≠ some (.file number) := by
  have hsome : v'.node? place ≠ none := by
    rw [hfile]
    exact Option.some_ne_none _
  rcases h.made place hnone hsome with ⟨dir, -, hfind⟩ | ⟨number', hfind, hnew⟩
  · have hdirectory := (find_eq_ok_iff.mp hfind).2.2
    rw [hfile] at hdirectory
    cases hdirectory
  · have hnode := (find_eq_ok_iff.mp hfind).2.2
    rw [hfile] at hnode
    cases hnode
    exact ⟨hfind, hnew⟩

/-- Directories and a file make no links and no second names. -/
theorem Plain.touches (h : v.Plain) (htouches : v.Touches dirs path v') : v'.Plain := by
  refine ⟨fun place target hlink => h.no_link place target (htouches.keeps.link _ _ hlink),
    fun place place' number hplace hplace' => ?_⟩
  -- a name that was there is that of a file that was there
  have hkept {place : Location} {node : Node} (hplace : v'.node? place = some (.file number))
      (hnode : v.node? place = some node) : v.node? place = some (.file number) := by
    have hsame := htouches.keeps.kept _ _ hnode
    rw [hplace] at hsame
    rw [hnode, hsame]
  cases hbefore : v.node? place with
  | none =>
    obtain ⟨hfind, hnew⟩ := htouches.find_of_new hbefore hplace
    cases hbefore' : v.node? place' with
    | none =>
      obtain ⟨hfind', -⟩ := htouches.find_of_new hbefore' hplace'
      rw [hfind] at hfind'
      cases hfind'
      rfl
    | some node => exact absurd (hkept hplace' hbefore') (hnew place')
  | some node =>
    cases hbefore' : v.node? place' with
    | none =>
      obtain ⟨-, hnew⟩ := htouches.find_of_new hbefore' hplace'
      exact absurd (hkept hplace hbefore) (hnew place)
    | some node' => exact h.one_name _ _ _ (hkept hplace hbefore) (hkept hplace' hbefore')

end Volume

/-! ### Chains of directories -/

/-- The paths that a path lies in as it is written, from which it goes down only. -/
def Path.enclosing (path : Path) : List Path :=
  path.ancestors.filter fun above =>
    !(path.components.drop above.components.length).contains Component.up

/-- A path that never goes up goes down from all that it lies in. -/
theorem Path.enclosing_eq {path : Path} (h : Component.up ∉ path.components) :
    path.enclosing = path.ancestors := by
  refine List.filter_eq_self.mpr fun above _ => ?_
  have hnot : Component.up ∉ path.components.drop above.components.length :=
    fun hmem => h (List.mem_of_mem_drop hmem)
  simpa using hnot

theorem Disk.bind_apply {σ α β : Type} (x : StateM σ α) (f : α → StateM σ β) (s : σ) :
    (x >>= f) s = f (x s).1 (x s).2 := rfl

/-- What every step of making a chain of directories keeps to, making the whole chain keeps to. -/
theorem Disk.makeChain_preserves {σ : Type} [Disk (StateM σ)] {R : σ → σ → Prop}
    (hrefl : ∀ s, R s s) (htrans : ∀ {s s' s''}, R s s' → R s' s'' → R s s'') {chain : List Path}
    (hmake : ∀ path ∈ chain, ∀ s, R s ((makeDirectory path : StateM σ _) s).2)
    (hkind : ∀ path ∈ chain, ∀ s, R s ((isDirectory path : StateM σ _) s).2) (s : σ) :
    R s ((makeChain chain : StateM σ _) s).2 := by
  induction chain generalizing s with
  | nil => exact hrefl s
  | cons path above ih =>
    obtain ⟨hfirst, hmake⟩ := List.forall_mem_cons.mp hmake
    obtain ⟨hlook, hkind⟩ := List.forall_mem_cons.mp hkind
    by_cases hempty : path.isEmpty = true
    · rw [makeChain, if_pos hempty]
      exact hrefl s
    · rw [makeChain, if_neg hempty, bind_apply]
      have hmade := hfirst s
      generalize (makeDirectory path : StateM σ _) s = made at hmade ⊢
      obtain ⟨fault | ⟨⟩, s₁⟩ := made
      · cases fault with
        | notFound =>
          have habove := htrans hmade (ih hmake hkind s₁)
          simp only [bind_apply]
          generalize (makeChain above : StateM σ _) s₁ = made at habove ⊢
          obtain ⟨fault | ⟨⟩, s₂⟩ := made
          · exact habove
          · -- the step is tried again when the directories above have been made
            have hagain := htrans habove (hfirst s₂)
            simp only [bind_apply]
            generalize (makeDirectory path : StateM σ _) s₂ = made at hagain ⊢
            obtain ⟨fault | ⟨⟩, s₃⟩ := made
            · exact htrans hagain (hlook s₃)
            · exact hagain
        | _ => exact htrans hmade (hlook s₁)
      · exact hmade

/-! ### Sessions -/

namespace Session

variable {s s' : Session} {dirs : List Path} {path : Path} {bytes : ByteArray}

/-- Whether a session has come to another one by making directories, to which given paths lead. -/
structure Grows (s : Session) (dirs : List Path) (s' : Session) : Prop where
  volume : s.volume.Grows dirs s'.volume
  luck : s'.luck <:+ s.luck

namespace Grows

protected theorem refl (s : Session) (dirs : List Path) : s.Grows dirs s :=
  ⟨.refl s.volume dirs, List.suffix_refl _⟩

protected theorem trans {s'' : Session} (h : s.Grows dirs s') (h' : s'.Grows dirs s'') :
    s.Grows dirs s'' :=
  ⟨h.volume.trans h'.volume, h'.luck.trans h.luck⟩

end Grows

theorem volume_next (s : Session) : s.next.2.volume = s.volume := by
  rw [next]
  split <;> rfl

/-- What the system says to a step, it had in store. -/
theorem mem_luck_of_next {luck : Luck} (h : s.next.1 = luck) (hne : luck ≠ .granted) :
    luck ∈ s.luck := by
  rw [next] at h
  split at h
  · exact absurd h.symm hne
  · next first rest hluck =>
    obtain rfl : first = luck := h
    rw [hluck]
    exact List.mem_cons_self ..

/-- A step takes what it is granted from the list, and nothing grows by that. -/
theorem next_grows (s : Session) (dirs : List Path) : s.Grows dirs s.next.2 := by
  rw [next]
  split
  · exact .refl s dirs
  · next luck rest hluck => exact ⟨.refl _ dirs, hluck ▸ List.suffix_cons luck rest⟩

/-- To look at a volume is a step that changes nothing. -/
theorem ask_snd {β : Type} (s : Session) (answer : Volume → Except Fault β) :
    (s.ask answer).2 = s.next.2 := by
  rw [ask]
  rcases s.next with ⟨_ | _ | _, s'⟩ <;> rfl

theorem kind?_snd (s : Session) (path : Path) :
    ((Disk.kind? path : StateM Session _) s).2 = s.next.2 := by
  rw [← ask_snd s fun volume => .ok (volume.kind? path)]
  simp only [Disk.kind?]
  rcases s.ask fun volume => .ok (volume.kind? path) with ⟨_ | _, s'⟩ <;> rfl

theorem isDirectory_snd (s : Session) (path : Path) :
    ((Disk.isDirectory path : StateM Session _) s).2 = s.next.2 :=
  kind?_snd s path

theorem readText_snd (s : Session) (path : Path) :
    ((Disk.readText path : StateM Session _) s).2 = s.next.2 :=
  s.ask_snd (·.readBytes path)

/-- A step makes a directory or does nothing. -/
theorem makeDirectory_grows (s : Session) (path : Path) :
    s.Grows [path] (s.makeDirectory path).2 := by
  have hnext := s.next_grows [path]
  rw [makeDirectory]
  generalize s.next = step at hnext ⊢
  obtain ⟨_ | _ | _, s₁⟩ := step
  · exact hnext.trans ⟨s₁.volume.makeDirectory_grows path, List.suffix_refl _⟩
  · exact hnext
  · exact hnext

/-- Making a chain of directories makes no others. -/
theorem makeChain_grows (s : Session) (chain : List Path) :
    s.Grows chain ((Disk.makeChain chain : StateM Session _) s).2 := by
  refine Disk.makeChain_preserves (R := fun s s' => s.Grows chain s') (fun s => .refl s chain)
    Grows.trans (fun path hpath s => ?_) (fun path _ s => ?_) s
  · have hmade := s.makeDirectory_grows path
    exact ⟨hmade.volume.mono (by simpa using hpath), hmade.luck⟩
  · rw [isDirectory_snd]
    exact s.next_grows chain

/-! ### Putting bytes into a file -/

/-- What it may come to to put bytes into the file under a path, with the directories for it: what
is changed, and what comes of the files if it is done and if it is not. -/
structure Puts (s : Session) (dirs : List Path) (path : Path) (bytes : ByteArray) (s' : Session)
    (isDone : Bool) : Prop where
  /-- There are more directories, and nothing else is changed but the file. -/
  touches : s.volume.Touches dirs path s'.volume
  /-- Once it is done, the file holds the bytes. -/
  done : isDone = true → s'.volume.readBytes path = .ok bytes
  /-- If it is not done, no file is made or changed, unless the system has stopped the write. Then
  the file holds a beginning of the bytes. -/
  spared : isDone = false → s.volume.Grows dirs s'.volume ∨
    ∃ count fault, .stopped count fault ∈ s.luck ∧ count < bytes.size ∧
      s'.volume.readBytes path = .ok (bytes.extract 0 count)

/-- As long as only directories are made, no file is changed. -/
theorem puts_of_grows (h : s.volume.Grows dirs s'.volume) (path : Path) (bytes : ByteArray) :
    s.Puts dirs path bytes s' false where
  touches := h.touches path
  done := nofun
  spared _ := .inl h

/-- If the system stops no write, what is not done costs no file what it held. -/
theorem Puts.grows (h : s.Puts dirs path bytes s' false)
    (hluck : ∀ count fault, .stopped count fault ∉ s.luck) : s.volume.Grows dirs s'.volume := by
  rcases h.spared rfl with hgrows | ⟨count, fault, hstopped, -⟩
  · exact hgrows
  · exact absurd hstopped (hluck count fault)

/-- How a write may end: nothing is changed, or the file holds all bytes, or it holds the first of
them because the system has stopped the write. -/
inductive Wrote (s : Session) (path : Path) (bytes : ByteArray) :
    Except Fault Unit → Session → Prop
  | failed (fault : Fault) {s' : Session} (hsame : s'.volume = s.volume) :
      Wrote s path bytes (.error fault) s'
  | done {location : Location} {s' : Session} (htarget : s.volume.target path = .ok location)
      (hvolume : s'.volume = s.volume.write location bytes) : Wrote s path bytes (.ok ()) s'
  | stopped {count : ℕ} {fault : Fault} {location : Location} {s' : Session}
      (hluck : .stopped count fault ∈ s.luck) (hcount : count < bytes.size)
      (htarget : s.volume.target path = .ok location)
      (hvolume : s'.volume = s.volume.write location (bytes.extract 0 count)) :
      Wrote s path bytes (.error fault) s'

/-- Whatever the system grants, a write does one of the things that a write may do. -/
theorem wrote_writeBytes (s : Session) (path : Path) (bytes : ByteArray) :
    s.Wrote path bytes (s.writeBytes path bytes).1 (s.writeBytes path bytes).2 := by
  have hvolume := s.volume_next
  have hluck {luck : Luck} : s.next.1 = luck → luck ≠ .granted → luck ∈ s.luck :=
    s.mem_luck_of_next
  rw [writeBytes]
  generalize s.next = step at hvolume hluck ⊢
  obtain ⟨luck, s₁⟩ := step
  dsimp only at hvolume hluck ⊢
  cases luck with
  | granted =>
    simp only [outcome]
    cases htarget : s₁.volume.target path with
    | error fault => exact .failed fault hvolume
    | ok location => exact .done (hvolume ▸ htarget) (by rw [hvolume])
  | refused fault => exact .failed fault hvolume
  | stopped count fault =>
    -- a write that is stopped behind its last byte is a write that was done
    by_cases hcount : count < bytes.size
    · simp only [outcome, if_pos hcount]
      cases htarget : s₁.volume.target path with
      | error fault' => exact .failed fault' hvolume
      | ok location =>
        exact .stopped (hluck rfl nofun) hcount (hvolume ▸ htarget) (by rw [hvolume])
    · simp only [outcome, if_neg hcount]
      cases htarget : s₁.volume.target path with
      | error fault' => exact .failed fault' hvolume
      | ok location => exact .done (hvolume ▸ htarget) (by rw [hvolume])

/-- After directories have been made, a file is written. -/
theorem Grows.puts {s₁ : Session} {answer : Except Fault Unit} (h : s.Grows dirs s₁)
    (hwrote : s₁.Wrote path bytes answer s') : s.Puts dirs path bytes s' answer.isOk := by
  have hwrites {location : Location} (htarget : s₁.volume.target path = .ok location)
      (left : ByteArray) :
      ∃ number, s₁.volume.Writes location number left (s₁.volume.write location left) :=
    Volume.exists_writes (Volume.target_eq_ok htarget).2.2.1 (Volume.target_eq_ok htarget).2.2.2 left
  cases hwrote with
  | failed fault hsame => exact puts_of_grows (hsame ▸ h.volume) path bytes
  | done htarget hvolume =>
    obtain ⟨number, hwrites⟩ := hwrites htarget bytes
    rw [← hvolume] at hwrites
    refine ⟨h.volume.write hwrites htarget, fun _ => ?_, nofun⟩
    rw [Volume.readBytes_of_find (hwrites.find htarget), hwrites.filled]
  | @stopped count fault _ _ hluck hcount htarget hvolume =>
    obtain ⟨number, hwrites⟩ := hwrites htarget (bytes.extract 0 count)
    rw [← hvolume] at hwrites
    refine ⟨h.volume.write hwrites htarget, nofun, fun _ => .inr
      ⟨count, fault, h.luck.subset hluck, hcount, ?_⟩⟩
    rw [Volume.readBytes_of_find (hwrites.find htarget), hwrites.filled]

end Session

end Wireframe
