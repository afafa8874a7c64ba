import Mathlib.Data.List.Nodup
import Wireframe.Store.Directory
import Wireframe.Proofs.FileSystem.Directories
import Wireframe.Proofs.FileSystem.Listing

/-!
# The files of a store

What the store in a directory does to the files of it. Each identifier has a file of its own in the
directory (`DirectoryStore.idOf?_eq_some_iff`), at a place right below that of the directory
(`DirectoryStore.place_pathFor`). Saving writes this file once the directory is there, loading reads
it, and listing gives the identifiers whose files are there.
-/

namespace Wireframe

/-- Bytes made from a text are that text. -/
theorem Disk.textOfBytes_toUTF8 (text : String) : Disk.textOfBytes text.toUTF8 = .ok text := by
  have h : String.fromUTF8? text.toUTF8 = some text := dif_pos text.isValidUTF8
  rw [textOfBytes, h]

/-- The bytes of a text, and no others, are that text. -/
theorem Disk.textOfBytes_eq_ok_iff {bytes : ByteArray} {text : String} :
    Disk.textOfBytes bytes = .ok text ↔ bytes = text.toUTF8 := by
  constructor
  · intro h
    rw [Disk.textOfBytes, String.fromUTF8?] at h
    split at h
    · next found hfound =>
      split at hfound
      · cases hfound
        cases h
        rfl
      · cases hfound
    · cases h
  · rintro rfl
    exact Disk.textOfBytes_toUTF8 text

namespace Store

theorem checkId_of_isId {id : String} (h : isId id = true) : checkId id = .ok () := if_pos h

theorem checkId_of_not_isId {id : String} (h : isId id = false) :
    checkId id = .error (.invalidId id) := if_neg (by simp [h])

/-- An id has none of the characters that no id may have. -/
theorem not_mem_of_isId {id : String} (h : isId id = true) {c : Char} (hc : isIdChar c = false) :
    c ∉ id.toList := by
  intro hmem
  rw [isId, Bool.and_eq_true] at h
  rw [List.all_eq_true.mp h.2 c hmem] at hc
  cases hc

/-- An id may name a file. -/
theorem isName_of_isId {id : String} (h : isId id = true) : Path.IsName id := by
  have hpoint := not_mem_of_isId h (c := '.') (by decide)
  refine ⟨?_, ?_, not_mem_of_isId h (by decide), not_mem_of_isId h (by decide)⟩
  · rw [Path.isIdle, Bool.or_eq_false_iff, beq_eq_false_iff_ne, beq_eq_false_iff_ne]
    refine ⟨?_, ?_⟩ <;> rintro rfl
    · exact absurd h (by decide)
    · exact hpoint (by decide)
  · rintro rfl
    exact hpoint (by decide)

end Store

namespace DirectoryStore

open Wireframe.Path (IsName)

variable {id name : String}

/-! ### Names of files -/

/-- The file of an id is the id with the extension of pages. -/
theorem fileName_eq_rename (h : Store.isId id = true) : fileName id = Path.rename id extension := by
  have hpoint := Store.not_mem_of_isId h (c := '.') (by decide)
  have hsplit : Path.splitName id = (id, none) :=
    Path.splitName_of_no_point (List.append_nil _).symm (by simpa using hpoint)
      (.inl rfl)
  rw [Path.rename, hsplit]
  rfl

theorem isName_fileName (h : Store.isId id = true) : IsName (fileName id) := by
  rw [fileName_eq_rename h]
  exact (Store.isName_of_isId h).rename (by decide)

/-- The names of files that are passed over are those that no identifier has. -/
theorem idOf?_eq_some_iff : idOf? name = some id ↔ Store.isId id = true ∧ name = fileName id := by
  constructor
  · intro h
    rw [idOf?] at h
    split at h
    · rename_i stem ext hsplit
      split at h
      · rename_i hboth
        rw [Bool.and_eq_true, beq_iff_eq] at hboth
        obtain ⟨rfl, hid⟩ := hboth
        obtain rfl := Option.some.inj h
        exact ⟨hid, (Path.splitName_eq_iff.mp hsplit).1⟩
      · cases h
    · cases h
  · rintro ⟨hid, rfl⟩
    have hne : id ≠ "" := by
      rintro rfl
      exact absurd hid (by decide)
    have hsplit : Path.splitName (fileName id) = (id, some extension) :=
      Path.splitName_append hne (by decide)
    simp [idOf?, hsplit, hid]

theorem idOf?_fileName (h : Store.isId id = true) : idOf? (fileName id) = some id :=
  idOf?_eq_some_iff.mpr ⟨h, rfl⟩

/-- Different identifiers have different files. -/
theorem fileName_injective {id' : String} (h : Store.isId id = true) (h' : Store.isId id' = true)
    (heq : fileName id = fileName id') : id = id' := by
  have hid := idOf?_fileName h
  rw [heq, idOf?_fileName h', Option.some.injEq] at hid
  exact hid.symm

/-- Different files have different identifiers. -/
theorem nodup_filterMap_idOf? {names : List String} (h : names.Nodup) :
    (names.filterMap idOf?).Nodup := by
  refine h.filterMap fun a b id ha hb => ?_
  rw [Option.mem_def, idOf?_eq_some_iff] at ha hb
  rw [ha.2, hb.2]

/-- Identifiers are listed in increasing order. -/
theorem pairwise_mergeSort (ids : List String) :
    (ids.mergeSort fun a b => decide (a ≤ b)).Pairwise (· ≤ ·) :=
  (List.pairwise_mergeSort (fun a b c => by simpa using String.le_trans)
    (fun a b => by simpa using String.le_total a b) ids).imp of_decide_eq_true

/-! ### Places of files -/

section Places

variable (store : DirectoryStore) (fs : FileSystem)

theorem split_pathFor (h : Store.isId id = true) :
    (store.pathFor id).split = (store.root.split.1, store.root.openPieces ++ [fileName id]) :=
  Path.split_join_name store.root (isName_fileName h)

theorem ends_pathFor (h : Store.isId id = true) :
    (store.pathFor id).Ends store.root.openPieces (fileName id) [] :=
  Path.ends_join store.root (isName_fileName h)

theorem origin_pathFor (h : Store.isId id = true) :
    fs.origin (store.pathFor id) = fs.origin store.root :=
  FileSystem.origin_join fs store.root (isName_fileName h)

theorem place_pathFor (h : Store.isId id = true) :
    fs.place (store.pathFor id) = fs.place store.root ++ [fileName id] :=
  FileSystem.place_join fs store.root (isName_fileName h)

/-- The file for an identifier is reached through the places that the directory is. -/
theorem wayTo_pathFor_subset (h : Store.isId id = true) :
    fs.wayTo (store.pathFor id) ⊆ fs.through store.root := by
  intro place hplace
  rw [FileSystem.wayTo, origin_pathFor store fs h, split_pathFor store h, FileSystem.way_concat,
    FileSystem.reach_openPieces, List.mem_append, List.mem_singleton] at hplace
  rcases hplace with hplace | rfl
  · refine List.mem_append_left _ ?_
    rw [FileSystem.wayTo]
    rcases store.root.openPieces_cases with hcases | hcases <;> rw [hcases]
    · exact hplace
    · rw [FileSystem.way_append]
      exact List.mem_append_left _ hplace
  · exact fs.place_mem_through store.root

/-- The path of an id is as clean as that of the root. -/
theorem clean_pathFor (h : Store.isId id = true) :
    (store.pathFor id).Clean ↔ store.root.Clean := by
  rw [Path.clean_iff, Path.clean_iff, split_pathFor store h, List.forall_mem_append,
    List.forall_mem_singleton, and_iff_left (isName_fileName h).no_null]
  rcases store.root.openPieces_cases with hcases | hcases <;> rw [hcases]
  rw [List.forall_mem_append, List.forall_mem_singleton, and_iff_left (by decide)]

theorem refusal?_pathFor (h : Store.isId id = true) (hroot : store.root.Clean) :
    FileSystem.refusal? (store.pathFor id) = none := by
  refine FileSystem.refusal?_eq_none_iff.mpr ⟨(clean_pathFor store h).mpr hroot, ?_⟩
  exact Path.text_ne_of_split (split_pathFor store h) (isName_fileName h).not_idle

end Places

/-! ### Operations -/

section Operations

open FileSystem (bind_apply pure_apply)

variable {store : DirectoryStore} {fs fs' : FileSystem} {content : String}

/-- The answer to a request on a file system, with what it leaves behind. -/
def respond (store : DirectoryStore) (fs : FileSystem) (request : Store.Request) :
    Except StoreError Store.Reply × FileSystem :=
  store.answer (m := StateM FileSystem) request fs

theorem respond_save_of_not_id (h : Store.isId id = false) (content : String) :
    store.respond fs (.save id content) = (.error (.invalidId id), fs) := by
  rw [respond, answer, save, Store.checkId_of_not_isId h]
  rfl

theorem respond_load_of_not_id (h : Store.isId id = false) :
    store.respond fs (.load id) = (.error (.invalidId id), fs) := by
  rw [respond, answer, load, Store.checkId_of_not_isId h]
  rfl

/-- Once the directory is there, it depends on the file what comes of saving. -/
theorem respond_save_of_made (h : Store.isId id = true)
    (hmake : fs.makeDirectories store.root = (.ok (), fs')) (content : String) :
    store.respond fs (.save id content) =
      (((fs'.writeBytes (store.pathFor id) content.toUTF8).1.mapError
          (.disk (store.pathFor id))).map fun _ => .saved,
        (fs'.writeBytes (store.pathFor id) content.toUTF8).2) := by
  rw [respond, answer, save, Store.checkId_of_isId h]
  simp only [bind_apply, FileSystem.makeDirectories_apply, hmake, FileSystem.writeText_apply]
  rcases fs'.writeBytes (store.pathFor id) content.toUTF8 with ⟨fault | ⟨⟩, fs''⟩ <;> rfl

/-- The file is written if it can be. -/
theorem respond_save (h : Store.isId id = true)
    (hmake : fs.makeDirectories store.root = (.ok (), fs')) {fs'' : FileSystem}
    (hwrite : fs'.writeBytes (store.pathFor id) content.toUTF8 = (.ok (), fs'')) :
    store.respond fs (.save id content) = (.ok .saved, fs'') := by
  rw [respond_save_of_made h hmake, hwrite]
  rfl

/-- If the directory cannot be made, nothing is saved. -/
theorem respond_save_of_error (h : Store.isId id = true) {fault : Fault}
    (hmake : fs.makeDirectories store.root = (.error fault, fs')) :
    store.respond fs (.save id content) = (.error (.disk store.root fault), fs') := by
  rw [respond, answer, save, Store.checkId_of_isId h]
  simp only [bind_apply, FileSystem.makeDirectories_apply, hmake]
  rfl

/-- If the file cannot be written, the directory has been made all the same. -/
theorem respond_save_of_write_error (h : Store.isId id = true)
    (hmake : fs.makeDirectories store.root = (.ok (), fs')) {fault : Fault}
    (hwrite : fs'.writeBytes (store.pathFor id) content.toUTF8 = (.error fault, fs')) :
    store.respond fs (.save id content) = (.error (.disk (store.pathFor id) fault), fs') := by
  rw [respond_save_of_made h hmake, hwrite]
  rfl

/-- Saving under an identifier makes the directory, and then writes the file where there is no
directory, or fails. -/
theorem respond_save_cases (h : Store.isId id = true) (content : String) :
    (∃ path fault, store.respond fs (.save id content) =
        (.error (.disk path fault), (fs.makeDirectories store.root).2)) ∨
      ∃ grown : FileSystem, fs.makeDirectories store.root = (.ok (), grown) ∧
        grown.entry? (grown.place (store.pathFor id)) ≠ some .directory ∧
        grown.writeBytes (store.pathFor id) content.toUTF8 =
          (.ok (), grown.put (grown.place (store.pathFor id)) (.file content.toUTF8)) ∧
        store.respond fs (.save id content) =
          (.ok .saved, grown.put (grown.place (store.pathFor id)) (.file content.toUTF8)) := by
  rcases hmake : fs.makeDirectories store.root with ⟨fault | ⟨⟩, grown⟩
  · exact .inl ⟨_, fault, respond_save_of_error h hmake⟩
  · rcases grown.writeBytes_cases (store.pathFor id) content.toUTF8 with
      ⟨fault, hwrite⟩ | ⟨hwrite, -, -, -, hentry⟩
    · exact .inl ⟨_, fault, respond_save_of_write_error h hmake hwrite⟩
    · exact .inr ⟨grown, rfl, hentry, hwrite, respond_save h hmake hwrite⟩

theorem respond_load (h : Store.isId id = true)
    (hread : fs.readBytes (store.pathFor id) = .ok content.toUTF8) :
    store.respond fs (.load id) = (.ok (.content content), fs) := by
  rw [respond, answer, load, Store.checkId_of_isId h]
  simp only [bind_apply, FileSystem.readText_apply, hread, Except.bind, Disk.textOfBytes_toUTF8]
  rfl

/-- What has been saved is loaded. -/
theorem respond_load_of_saved (h : Store.isId id = true)
    (hsaved : store.respond fs (.save id content) = (.ok .saved, fs')) :
    store.respond fs' (.load id) = (.ok (.content content), fs') := by
  rcases respond_save_cases h content with ⟨path, fault, heq⟩ | ⟨grown, -, -, hwrite, heq⟩
  · rw [heq] at hsaved
    cases hsaved
  · rw [heq] at hsaved
    cases hsaved
    exact respond_load h (FileSystem.readBytes_writeBytes hwrite)

/-- What is not found is reported by its identifier, anything else by the path of the file. -/
theorem respond_load_of_error (h : Store.isId id = true) {fault : Fault}
    (hread : fs.readBytes (store.pathFor id) = .error fault) :
    store.respond fs (.load id) =
      (.error (if fault = .notFound then .notFound id else .disk (store.pathFor id) fault),
        fs) := by
  rw [respond, answer, load, Store.checkId_of_isId h]
  simp only [bind_apply, FileSystem.readText_apply, hread, Except.bind]
  cases fault <;> rfl

/-- A root that is missing holds no ids. -/
theorem respond_list_of_missing (h : fs.kind? store.root = none) :
    store.respond fs .list = (.ok (.ids []), fs) := by
  rw [respond, answer, list]
  simp only [bind_apply, FileSystem.kind?_apply, h]
  rfl

/-- A root that is there is listed: the ids among its names, sorted. -/
theorem respond_list {kind : Kind} {names : List String} (h : fs.kind? store.root = some kind)
    (hnames : fs.names store.root = .ok names) :
    store.respond fs .list =
      (.ok (.ids ((names.filterMap idOf?).mergeSort fun a b => decide (a ≤ b))), fs) := by
  rw [respond, answer, list]
  simp only [bind_apply, FileSystem.kind?_apply, h, FileSystem.names_apply, hnames]
  rfl

end Operations

/-! ### Trees after saving -/

section Saves

variable {store : DirectoryStore} {fs fs' : FileSystem} {content : String}
  {reply : Except StoreError Store.Reply}

/-- What there is after saving: the tree has grown by directories, and if saving has gone well, the
file has been put into it. -/
inductive Saves (store : DirectoryStore) (fs : FileSystem) (id content : String) :
    Except StoreError Store.Reply → FileSystem → Prop
  | refused (hid : Store.isId id = false) :
      Saves store fs id content (.error (.invalidId id)) fs
  | failed (hid : Store.isId id = true) {grown : FileSystem} {path : Path} {fault : Fault}
      (hgrows : fs.Grows (store.root.ancestors.map fs.place) grown) :
      Saves store fs id content (.error (.disk path fault)) grown
  | saved (hid : Store.isId id = true) {grown : FileSystem}
      (hgrows : fs.Grows (store.root.ancestors.map fs.place) grown) :
      Saves store fs id content (.ok .saved)
        (grown.put (fs.place (store.pathFor id)) (.file content.toUTF8))

/-- Saving does nothing else. -/
theorem saves_of_respond (heq : store.respond fs (.save id content) = (reply, fs')) :
    Saves store fs id content reply fs' := by
  cases hid : Store.isId id with
  | false =>
    rw [respond_save_of_not_id hid] at heq
    cases heq
    exact .refused hid
  | true =>
    have hgrows : fs.Grows (store.root.ancestors.map fs.place) (fs.makeDirectories store.root).2 :=
      fs.makeChain_grows store.root.ancestors
    rcases respond_save_cases hid content with
      ⟨path, fault, hfailed⟩ | ⟨grown, hmake, -, -, hsaved⟩
    · rw [hfailed] at heq
      cases heq
      exact .failed hid hgrows
    · rw [hmake] at hgrows
      rw [hsaved, hgrows.place_eq] at heq
      cases heq
      exact .saved hid hgrows

theorem place_pathFor_ne_nil (store : DirectoryStore) (fs : FileSystem)
    (hid : Store.isId id = true) : fs.place (store.pathFor id) ≠ [] := by
  rw [place_pathFor store fs hid]
  exact List.concat_ne_nil _ _

/-- A place that is changed is that of the file, or has a new directory. -/
theorem Saves.changed (h : Saves store fs id content reply fs') {place : Location}
    (hplace : fs'.entry? place ≠ fs.entry? place) :
    (∃ ancestor ∈ store.root.ancestors, place = fs.place ancestor ∧
      fs.entry? place = none ∧ fs'.entry? place = some .directory) ∨
    reply = .ok .saved ∧ place = fs.place (store.pathFor id) := by
  cases h with
  | refused hid => exact absurd rfl hplace
  | failed hid hgrows => exact .inl (hgrows.exists_made hplace)
  | saved hid hgrows =>
    have hput := FileSystem.entry?_put (place_pathFor_ne_nil store fs hid)
    by_cases hfile : place = fs.place (store.pathFor id)
    · exact .inr ⟨rfl, hfile⟩
    · rw [hput, if_neg hfile] at hplace ⊢
      exact .inl (hgrows.exists_made hplace)

end Saves

end DirectoryStore

end Wireframe
