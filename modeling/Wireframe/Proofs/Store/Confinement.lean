import Wireframe.Proofs.Store.Files
import Wireframe.Proofs.Volume.Changes

/-!
# Where a store keeps to

A store is asked for texts under names that may come from anywhere, and a name could be a path that
leads out of the directory. It never is: what is no identifier is refused before anything is
touched, and an identifier is the name of a file right below the directory. So saving makes the
directory, with what it lies in, and writes to the file to which this name leads, whatever there is
on the volume and whatever the system says (`DirectoryStore.confined`).

Where the name leads is another question. If it is a link, the file may be anywhere, and two names
may stand for one file. A write that the system stops has cost the file what it held. And a path
that goes up again makes directories that the directory does not lie in. Each of these makes a store
reach further than its own files (`DirectoryStore.not_confinedStrictly`); where there is none of
them, it keeps to these.
-/

namespace Wireframe

namespace DirectoryStore

open Disk (bind_apply)
open Wireframe.Path (IsName)

variable {store : DirectoryStore} {s s' : Session} {id content : String}

/-- The answer to a request in a session, with what it leaves behind. -/
def serve (store : DirectoryStore) (s : Session) (request : Store.Request) :
    Except StoreError Store.Reply × Session :=
  store.answer (m := StateM Session) request s

/-! ### What a store keeps to -/

/-- Whether a store keeps to its own names in a session, whatever it is asked. -/
structure Confined (store : DirectoryStore) (s : Session) : Prop where
  /-- What is no identifier is refused, and nothing is done. -/
  refused : ∀ id content, Store.isId id = false →
    store.serve s (.save id content) = (.error (.invalidId id), s)
  /-- Under an identifier, saving goes well or a step on the disk is not taken. -/
  answered : ∀ id content, Store.isId id = true →
    (store.serve s (.save id content)).1 = .ok .saved ∨
      ∃ path fault, (store.serve s (.save id content)).1 = .error (.disk path fault)
  /-- Saving makes the directory and what it lies in, and puts the text into the file to which the
  path for the identifier leads. If it goes well, the file holds the text. If it does not, no file
  is made or changed, unless the system has stopped the write: then it holds a beginning of it. -/
  saved : ∀ id content, Store.isId id = true →
    s.Puts store.root.ancestors (store.pathFor id) content.toUTF8
      (store.serve s (.save id content)).2 (store.serve s (.save id content)).1.isOk
  /-- The path for an identifier leads to a place right below the directory, unless there is a link
  at this place. -/
  child : ∀ id place node, Store.isId id = true →
    s.volume.find (store.pathFor id) = .ok (place, node) →
    ∃ directory, s.volume.locate store.root = .ok directory ∧
      (place = directory ++ [fileName id] ∨
        ∃ target, s.volume.node? (directory ++ [fileName id]) = some (.link target))
  /-- Different identifiers have different files, unless one of their names is a link or the file
  has two names. -/
  distinct : ∀ id id' place place' number, Store.isId id = true → Store.isId id' = true →
    s.volume.find (store.pathFor id) = .ok (place, .file number) →
    s.volume.find (store.pathFor id') = .ok (place', .file number) →
    id = id' ∨ place ≠ place' ∨ ∃ directory target, s.volume.locate store.root = .ok directory ∧
      (s.volume.node? (directory ++ [fileName id]) = some (.link target) ∨
        s.volume.node? (directory ++ [fileName id']) = some (.link target))
  /-- Loading changes nothing. -/
  load : ∀ id, (store.serve s (.load id)).2.volume = s.volume
  /-- Listing changes nothing. -/
  list : (store.serve s .list).2.volume = s.volume

/-- Whether a store keeps to its own files in a session: to the directories that its directory lies
in, and to one file for each identifier that is right below the directory, which has the text or
what it had. -/
structure ConfinedStrictly (store : DirectoryStore) (s : Session) : Prop where
  /-- What is no identifier is refused, and nothing is done. -/
  refused : ∀ id content, Store.isId id = false →
    (store.serve s (.save id content)).1 = .error (.invalidId id) ∧
      (store.serve s (.save id content)).2.volume = s.volume
  /-- What saving makes are directories that the directory of the store lies in, and the file. -/
  made : ∀ id content, Store.isId id = true →
    s.volume.Touches store.root.enclosing (store.pathFor id)
      (store.serve s (.save id content)).2.volume
  /-- A file that is new or that is changed has one name only, right below the directory. -/
  single : ∀ id content place number, Store.isId id = true →
    (store.serve s (.save id content)).2.volume.node? place = some (.file number) →
    s.volume.node? place = none ∨ (store.serve s (.save id content)).2.volume.contents number ≠
      s.volume.contents number →
    ∃ directory, (store.serve s (.save id content)).2.volume.locate store.root = .ok directory ∧
      place = directory ++ [fileName id]
  /-- If saving fails, every file holds what it held. -/
  failed : ∀ id content path fault,
    (store.serve s (.save id content)).1 = .error (.disk path fault) →
    ∀ place number, s.volume.node? place = some (.file number) →
      (store.serve s (.save id content)).2.volume.contents number = s.volume.contents number
  /-- Different identifiers have different files. -/
  distinct : ∀ id id' place place' number, Store.isId id = true → Store.isId id' = true →
    s.volume.find (store.pathFor id) = .ok (place, .file number) →
    s.volume.find (store.pathFor id') = .ok (place', .file number) → id = id'
  /-- Loading changes nothing. -/
  load : ∀ id, (store.serve s (.load id)).2.volume = s.volume
  /-- Listing changes nothing. -/
  list : (store.serve s .list).2.volume = s.volume

/-! ### Requests -/

theorem serve_save_of_not_id (h : Store.isId id = false) (content : String) :
    store.serve s (.save id content) = (.error (.invalidId id), s) := by
  rw [serve, answer, save, Store.checkId_of_not_isId h]
  rfl

/-- Saving makes the directory and then writes the file. -/
theorem serve_save (store : DirectoryStore) (s : Session) (h : Store.isId id = true)
    (content : String) :
    ((store.serve s (.save id content)).1 = .ok .saved ∨
        ∃ path fault, (store.serve s (.save id content)).1 = .error (.disk path fault)) ∧
      s.Puts store.root.ancestors (store.pathFor id) content.toUTF8
        (store.serve s (.save id content)).2 (store.serve s (.save id content)).1.isOk := by
  have hmade := s.makeChain_grows store.root.ancestors
  rw [serve, answer, save, Store.checkId_of_isId h]
  simp only [bind_apply, Disk.makeDirectories]
  generalize (Disk.makeChain store.root.ancestors : StateM Session _) s = made at hmade ⊢
  obtain ⟨fault | ⟨⟩, s₁⟩ := made
  · exact ⟨.inr ⟨_, fault, rfl⟩, Session.puts_of_grows hmade.volume _ _⟩
  · have hputs := hmade.puts (s₁.wrote_writeBytes (store.pathFor id) content.toUTF8)
    have hwrite : (Disk.writeText (store.pathFor id) content : StateM Session _) s₁ =
        s₁.writeBytes (store.pathFor id) content.toUTF8 := rfl
    simp only [bind_apply, hwrite]
    generalize s₁.writeBytes (store.pathFor id) content.toUTF8 = written at hputs ⊢
    obtain ⟨fault | ⟨⟩, s₂⟩ := written
    · exact ⟨.inr ⟨_, fault, rfl⟩, hputs⟩
    · exact ⟨.inl rfl, hputs⟩

/-- Loading changes nothing. -/
theorem volume_serve_load (store : DirectoryStore) (s : Session) (id : String) :
    (store.serve s (.load id)).2.volume = s.volume := by
  have hread : ((Disk.readText (store.pathFor id) : StateM Session _) s).2.volume = s.volume := by
    rw [Session.readText_snd, s.volume_next]
  rw [serve, answer, load]
  cases h : Store.isId id with
  | false =>
    rw [Store.checkId_of_not_isId h]
    rfl
  | true =>
    rw [Store.checkId_of_isId h]
    simp only [bind_apply]
    generalize (Disk.readText (store.pathFor id) : StateM Session _) s = found at hread ⊢
    obtain ⟨fault | text, s₁⟩ := found
    · cases fault <;> exact hread
    · exact hread

/-- Listing changes nothing. -/
theorem volume_serve_list (store : DirectoryStore) (s : Session) :
    (store.serve s .list).2.volume = s.volume := by
  have hkind : ((Disk.kind? store.root : StateM Session _) s).2.volume = s.volume := by
    rw [Session.kind?_snd, s.volume_next]
  rw [serve, answer, list]
  simp only [bind_apply]
  generalize (Disk.kind? store.root : StateM Session _) s = found at hkind ⊢
  obtain ⟨_ | kind, s₁⟩ := found
  · exact hkind
  · have hnames : ((Disk.names store.root : StateM Session _) s₁).2.volume = s.volume := by
      rw [← hkind, ← s₁.volume_next, ← s₁.ask_snd (·.names store.root)]
      rfl
    simp only [bind_apply]
    generalize (Disk.names store.root : StateM Session _) s₁ = names at hnames ⊢
    obtain ⟨fault | names, s₂⟩ := names
    · exact hnames
    · exact hnames

/-! ### Where the file is -/

/-- The name of the file is below the place to which the directory leads. -/
theorem exists_directory (hid : Store.isId id = true) {v : Volume} {place : Location}
    {node : Volume.Node} (h : v.find (store.pathFor id) = .ok (place, node)) :
    ∃ directory, v.locate store.root = .ok directory ∧
      (place = directory ++ [fileName id] ∨
        ∃ target, v.node? (directory ++ [fileName id]) = some (.link target)) := by
  have hname := isName_fileName hid
  obtain ⟨-, hlocate, -⟩ := Volume.find_eq_ok_iff.mp h
  have horigin : v.origin (store.pathFor id) = v.origin store.root := by
    rw [Volume.origin, Volume.origin, Volume.start, Volume.start, Path.isAbsolute, Path.isAbsolute,
      split_pathFor store hid]
  rw [Volume.locate_eq_ok_iff, horigin, split_pathFor store hid] at hlocate
  obtain ⟨directory, fewer, hroot, hlast⟩ := hlocate.exists_append
  refine ⟨directory, ?_, ?_⟩
  · -- a slash at the end of the path of the directory leads nowhere else
    rw [Volume.locate_eq_ok_iff]
    rcases store.root.openPieces_cases with hpieces | hpieces <;> rw [hpieces]
    · exact hroot
    · exact hroot.append fun _ => .idles hlast.directory (by decide)
  · by_cases hlink : ∃ target, v.node? (directory ++ [fileName id]) = some (.link target)
    · exact .inr hlink
    · exact .inl (hlast.of_name hname (by simpa using hlink))

/-- Two identifiers lead to one place only by way of a link. -/
theorem eq_or_link {id' : String} (hid : Store.isId id = true) (hid' : Store.isId id' = true)
    {v : Volume} {place : Location} {node node' : Volume.Node}
    (h : v.find (store.pathFor id) = .ok (place, node))
    (h' : v.find (store.pathFor id') = .ok (place, node')) :
    id = id' ∨ ∃ directory target, v.locate store.root = .ok directory ∧
      (v.node? (directory ++ [fileName id]) = some (.link target) ∨
        v.node? (directory ++ [fileName id']) = some (.link target)) := by
  obtain ⟨directory, hdirectory, hplace | ⟨target, hlink⟩⟩ := exists_directory hid h
  · obtain ⟨directory', hdirectory', hplace' | ⟨target, hlink⟩⟩ := exists_directory hid' h'
    · rw [hplace] at hplace'
      exact .inl (fileName_injective hid hid' (List.append_singleton_inj.mp hplace').2)
    · exact .inr ⟨directory', target, hdirectory', .inr hlink⟩
  · exact .inr ⟨directory, target, hdirectory, .inl hlink⟩

/-! ### What saving comes to -/

/-- A fault of the system is reported for a proper id only, and the save has failed. -/
theorem serve_save_of_not_ok {path : Path} {fault : Fault}
    (h : (store.serve s (.save id content)).1 = .error (.disk path fault)) :
    Store.isId id = true ∧ (store.serve s (.save id content)).1.isOk = false := by
  refine ⟨?_, by rw [h]; rfl⟩
  by_contra hid
  rw [serve_save_of_not_id (by simpa using hid)] at h
  cases h

/-- On a plain volume a store keeps to its own files, as long as no write is stopped and the path of
its directory does not go up. -/
theorem confinedStrictly_of_plain (hplain : s.volume.Plain)
    (hluck : ∀ count fault, .stopped count fault ∉ s.luck)
    (hroot : Path.Component.up ∉ store.root.components) : ConfinedStrictly store s where
  refused id content hid := by
    rw [serve_save_of_not_id hid]
    exact ⟨rfl, rfl⟩
  made id content hid := by
    rw [Path.enclosing_eq hroot]
    exact (serve_save store s hid content).2.touches
  single id content place number hid hfile hchange := by
    have htouches := (serve_save store s hid content).2.touches
    have hplain' := hplain.touches htouches
    have hfind : ∃ place', (store.serve s (.save id content)).2.volume.find (store.pathFor id) =
        .ok (place', .file number) := by
      rcases hchange with hnone | hcontents
      · exact ⟨place, (htouches.find_of_new hnone hfile).1⟩
      · exact htouches.contents number hcontents
    obtain ⟨place', hfind⟩ := hfind
    -- the file has one name, so it is the one to which the path of the id leads
    obtain ⟨directory, hdirectory, hplace | ⟨target, hlink⟩⟩ := exists_directory hid hfind
    · refine ⟨directory, hdirectory, ?_⟩
      rw [← hplace]
      exact hplain'.one_name _ _ _ hfile (Volume.find_eq_ok_iff.mp hfind).2.2
    · exact absurd hlink (hplain'.no_link _ _)
  failed id content path fault hfailed _ number _ := by
    obtain ⟨hid, hok⟩ := serve_save_of_not_ok hfailed
    have hputs := (serve_save store s hid content).2
    rw [hok] at hputs
    exact congrFun (hputs.grows hluck).contents number
  distinct id id' place place' number hid hid' hfind hfind' := by
    obtain rfl := hplain.one_name _ _ _ (Volume.find_eq_ok_iff.mp hfind).2.2
      (Volume.find_eq_ok_iff.mp hfind').2.2
    rcases eq_or_link hid hid' hfind hfind' with heq | ⟨_, _, -, hlink | hlink⟩
    · exact heq
    · exact absurd hlink (hplain.no_link _ _)
    · exact absurd hlink (hplain.no_link _ _)
  load := volume_serve_load store s
  list := volume_serve_list store s

/-- **A store keeps to its own names**, whatever is on the volume and whatever the system says. It
keeps to its own files where no name is a link and no file has two names, as long as no write is
stopped and the path of its directory does not go up. -/
theorem confined (store : DirectoryStore) (s : Session) :
    Confined store s ∧ (s.volume.Plain → (∀ count fault, .stopped count fault ∉ s.luck) →
      Path.Component.up ∉ store.root.components → ConfinedStrictly store s) := by
  refine ⟨⟨fun _ content hid => serve_save_of_not_id hid content,
    fun _ content hid => (serve_save store s hid content).1,
    fun _ content hid => (serve_save store s hid content).2,
    fun _ _ _ hid hfind => exists_directory hid hfind, ?_, volume_serve_load store s,
    volume_serve_list store s⟩, confinedStrictly_of_plain⟩
  intro id id' place place' number hid hid' hfind hfind'
  by_cases hplace : place = place'
  · subst hplace
    exact (eq_or_link hid hid' hfind hfind').imp_right .inr
  · exact .inr (.inl hplace)

/-- A volume with a directory for a store. -/
def prepared : Volume := Volume.bare.put ["docs"] .directory

/-- A file in the directory holds a text. -/
def held : Volume := (prepared.put ["docs", "home.txt"] (.file 0)).fill 0 "# Home".toUTF8

/-- In a directory with one file a store keeps to its own files. -/
theorem confinedStrictly_held : ConfinedStrictly ⟨⟨"docs"⟩⟩ ⟨held, []⟩ := by
  -- the only node that is no directory is that of the file
  have hnode (place : Location) (node : Volume.Node) (h : held.node? place = some node) :
      node = .directory ∨ place = ["docs", "home.txt"] ∧ node = .file 0 := by
    rw [held, Volume.node?_fill, Volume.node?_put (by decide), prepared,
      Volume.node?_put (by decide)] at h
    split at h
    · next hplace => exact .inr ⟨hplace, (Option.some.inj h).symm⟩
    · split at h
      · exact .inl (Option.some.inj h).symm
      · rw [Volume.node?] at h
        split at h
        · exact .inl (Option.some.inj h).symm
        · rw [Volume.bare, Std.ExtTreeMap.getElem?_empty] at h
          cases h
  refine (confined ⟨⟨"docs"⟩⟩ ⟨held, []⟩).2 ⟨fun place target hlink => ?_,
    fun place place' number hplace hplace' => ?_⟩ (by simp) (by decide)
  · rcases hnode _ _ hlink with hdirectory | ⟨-, hfile⟩
    · cases hdirectory
    · cases hfile
  · rcases hnode _ _ hplace with hdirectory | ⟨rfl, -⟩
    · cases hdirectory
    · rcases hnode _ _ hplace' with hdirectory | ⟨rfl, -⟩
      · cases hdirectory
      · rfl

/-! ### Volumes on which a store reaches further -/

/-- A link in the directory leads out of it. -/
def linked : Volume :=
  (prepared.put ["docs", "home.txt"] (.link ⟨"../outside.txt"⟩)).put ["outside.txt"] (.file 0)

/-- Two names in the directory stand for one file. -/
def shared : Volume :=
  (prepared.put ["docs", "home.txt"] (.file 0)).put ["docs", "about.txt"] (.file 0)

/-- The disk is full when the file is written. -/
def full : Session :=
  ⟨held, [.granted, .granted, .stopped 0 (.other "No space left on device (os error 28)")]⟩

/-- Where a link leads out of the directory, a save changes a file outside. -/
theorem not_confinedStrictly_linked : ¬ ConfinedStrictly ⟨⟨"docs"⟩⟩ ⟨linked, []⟩ := by
  intro h
  have hfile : (serve ⟨⟨"docs"⟩⟩ ⟨linked, []⟩ (.save "home" "new")).2.volume.node?
      ["outside.txt"] = some (.file 0) := by decide +kernel
  have hcontents : (serve ⟨⟨"docs"⟩⟩ ⟨linked, []⟩ (.save "home" "new")).2.volume.contents 0 ≠
      linked.contents 0 := by decide +kernel
  obtain ⟨directory, -, hplace⟩ := h.single "home" "new" ["outside.txt"] 0 (by decide) hfile
    (.inr hcontents)
  have hlast := congrArg List.getLast? hplace
  rw [List.getLast?_concat] at hlast
  exact absurd hlast (by decide)

/-- Where one file has two names, two ids share it. -/
theorem not_confinedStrictly_shared : ¬ ConfinedStrictly ⟨⟨"docs"⟩⟩ ⟨shared, []⟩ := by
  intro h
  have hhome : shared.find (pathFor ⟨⟨"docs"⟩⟩ "home") = .ok (["docs", "home.txt"], .file 0) := by
    rfl
  have habout : shared.find (pathFor ⟨⟨"docs"⟩⟩ "about") = .ok (["docs", "about.txt"], .file 0) := by
    rfl
  exact absurd (h.distinct "home" "about" _ _ 0 (by decide) (by decide) hhome habout) (by decide)

/-- On a full volume a save that fails has lost the old content. -/
theorem not_confinedStrictly_full : ¬ ConfinedStrictly ⟨⟨"docs"⟩⟩ full := by
  intro h
  have hfailed : (serve ⟨⟨"docs"⟩⟩ full (.save "home" "new")).1 =
      .error (.disk ⟨"docs/home.txt"⟩ (.other "No space left on device (os error 28)")) := by rfl
  have hcontents := h.failed "home" "new" _ _ hfailed ["docs", "home.txt"] 0 rfl
  exact absurd hcontents (by decide +kernel)

/-- Below a directory that is left again at once, a save makes this directory outside of the root.
-/
theorem not_confinedStrictly_up : ¬ ConfinedStrictly ⟨⟨"docs/.."⟩⟩ ⟨.bare, []⟩ := by
  intro h
  have hmade : (serve ⟨⟨"docs/.."⟩⟩ ⟨.bare, []⟩ (.save "home" "new")).2.volume.node? ["docs"] =
      some .directory := by decide +kernel
  have henclosing : Path.enclosing ⟨"docs/.."⟩ = [⟨"docs/.."⟩] := by decide +kernel
  have hroot : (serve ⟨⟨"docs/.."⟩⟩ ⟨.bare, []⟩ (.save "home" "new")).2.volume.locate ⟨"docs/.."⟩ =
      .ok [] := by rfl
  have hplace : (serve ⟨⟨"docs/.."⟩⟩ ⟨.bare, []⟩ (.save "home" "new")).2.volume.locate
      (pathFor ⟨⟨"docs/.."⟩⟩ "home") = .ok ["home.txt"] := by rfl
  rcases (h.made "home" "new" (by decide)).made ["docs"] rfl (by rw [hmade]; nofun) with
    ⟨dir, hdir, hfind⟩ | ⟨number, hfind, -⟩ <;>
    have hlocate := (Volume.find_eq_ok_iff.mp hfind).2.1
  · rw [henclosing, List.mem_singleton] at hdir
    rw [hdir, hroot] at hlocate
    exact absurd hlocate (by decide)
  · rw [hplace] at hlocate
    exact absurd hlocate (by decide)

/-- A link, a second name, a write that is stopped, and a path that goes up: each of them makes a
store reach further than its own files. -/
theorem not_confinedStrictly :
    ¬ ConfinedStrictly ⟨⟨"docs"⟩⟩ ⟨linked, []⟩ ∧ ¬ ConfinedStrictly ⟨⟨"docs"⟩⟩ ⟨shared, []⟩ ∧
      ¬ ConfinedStrictly ⟨⟨"docs"⟩⟩ full ∧ ¬ ConfinedStrictly ⟨⟨"docs/.."⟩⟩ ⟨.bare, []⟩ :=
  ⟨not_confinedStrictly_linked, not_confinedStrictly_shared, not_confinedStrictly_full,
    not_confinedStrictly_up⟩

end DirectoryStore

end Wireframe
