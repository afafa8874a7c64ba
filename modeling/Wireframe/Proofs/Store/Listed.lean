import Wireframe.Proofs.Store.Files

/-!
# What a store lists

A store lists the identifiers that name something in its directory, in increasing order and each
once (`DirectoryStore.exists_listed`). It does not ask what they name. A text that is stored is a
file, and so is what fails to be loaded only because it is no text (`DirectoryStore.holds_iff`); but
a directory can have the name of such a file as well, and then its identifier is listed although
nothing is stored under it. So a store lists what it holds exactly if there is no such directory
(`DirectoryStore.listsHeld_iff`).
-/

namespace Wireframe.DirectoryStore

variable {store : DirectoryStore} {fs : FileSystem} {id : String}

/-- Whether something is stored under a name: it is loaded, or it is not only because it is no
text. -/
def Holds (store : DirectoryStore) (fs : FileSystem) (id : String) : Prop :=
  (∃ content, store.respond fs (.load id) = (.ok (.content content), fs)) ∨
    store.respond fs (.load id) = (.error (.disk (store.pathFor id) .notText), fs)

/-- Whether what a store lists is what it holds, in increasing order. -/
def ListsHeld (store : DirectoryStore) (fs : FileSystem) : Prop :=
  ∃ ids, store.respond fs .list = (.ok (.ids ids), fs) ∧ ids.Pairwise (· < ·) ∧
    ∀ id, id ∈ ids ↔ Holds store fs id

/-! ### Listing -/

/-- The identifiers that different names have are different, and sorting puts them in increasing
order. -/
theorem pairwise_sorted_ids {names : List String} (h : names.Nodup) :
    ((names.filterMap idOf?).mergeSort fun a b => decide (a ≤ b)).Pairwise (· < ·) := by
  have hnodup : ((names.filterMap idOf?).mergeSort fun a b => decide (a ≤ b)).Nodup :=
    (List.mergeSort_perm _ _).nodup_iff.mpr (nodup_filterMap_idOf? h)
  exact ((pairwise_mergeSort _).and hnodup).imp fun h => Std.lt_of_le_of_ne h.1 h.2

/-- A directory lists the identifiers that name something in it. -/
theorem exists_listed (h : fs.kind? store.root = some .directory) :
    ∃ ids, store.respond fs .list = (.ok (.ids ids), fs) ∧ ids.Pairwise (· < ·) ∧
      ∀ id, id ∈ ids ↔ Store.isId id = true ∧ fs.entry? (fs.place (store.pathFor id)) ≠ none := by
  obtain ⟨names, hnames, hnodup, hmem⟩ := FileSystem.names_of_directory h
  refine ⟨_, respond_list h hnames, pairwise_sorted_ids hnodup, fun id => ?_⟩
  rw [List.mem_mergeSort, List.mem_filterMap]
  constructor
  · rintro ⟨name, hname, hidOf⟩
    obtain ⟨hid, rfl⟩ := idOf?_eq_some_iff.mp hidOf
    rw [place_pathFor store fs hid]
    exact ⟨hid, (hmem _).mp hname⟩
  · rintro ⟨hid, hentry⟩
    rw [place_pathFor store fs hid] at hentry
    exact ⟨fileName id, (hmem _).mpr hentry, idOf?_fileName hid⟩

/-! ### Loading -/

section Root

variable (h : fs.kind? store.root = some .directory) (hid : Store.isId id = true)

include h hid

theorem refusal?_pathFor_of_directory : FileSystem.refusal? (store.pathFor id) = none :=
  refusal?_pathFor store hid
    (FileSystem.refusal?_eq_none_iff.mp (FileSystem.kind?_eq_directory_iff.mp h).1).1

theorem directory_on_wayTo_pathFor :
    ∀ place ∈ fs.wayTo (store.pathFor id), fs.entry? place = some .directory :=
  fun place hplace => (FileSystem.kind?_eq_directory_iff_through.mp h).2 place
    (wayTo_pathFor_subset store fs hid hplace)

/-- What a path in the directory names is what is at its place. -/
theorem find_pathFor : fs.find (store.pathFor id) =
    match fs.entry? (fs.place (store.pathFor id)) with
    | none => .error .notFound
    | some entry => .ok (fs.place (store.pathFor id), entry) := by
  have hrefusal := refusal?_pathFor_of_directory h hid
  have hway := directory_on_wayTo_pathFor h hid
  cases hentry : fs.entry? (fs.place (store.pathFor id)) with
  | some entry => exact FileSystem.find_eq_ok_iff.mpr ⟨hrefusal, hway, rfl, hentry⟩
  | none =>
    refine (FileSystem.find_of_clear hrefusal fun place hplace bytes hfile => ?_).resolve_left ?_
    · rw [hway place hplace] at hfile
      cases hfile
    · rintro ⟨entry, hfind⟩
      rw [(FileSystem.find_eq_ok_iff.mp hfind).2.2.2] at hentry
      cases hentry

theorem kind?_pathFor_eq_directory_iff : fs.kind? (store.pathFor id) = some .directory ↔
    fs.entry? (fs.place (store.pathFor id)) = some .directory := by
  rw [FileSystem.kind?, find_pathFor h hid]
  rcases fs.entry? (fs.place (store.pathFor id)) with _ | _ | _ <;> simp [Entry.kind]

/-- What is read from a path in the directory depends on what is at its place. -/
theorem readBytes_pathFor : fs.readBytes (store.pathFor id) =
    match fs.entry? (fs.place (store.pathFor id)) with
    | none => .error .notFound
    | some .directory => .error .isDirectory
    | some (.file bytes) => .ok bytes := by
  rw [FileSystem.readBytes, find_pathFor h hid]
  rcases fs.entry? (fs.place (store.pathFor id)) with _ | _ | _ <;> rfl

end Root

/-- Something is stored if a text is read from its file, or bytes that are no text. -/
theorem holds_iff_read (hid : Store.isId id = true) : Holds store fs id ↔
    (∃ content, (fs.readBytes (store.pathFor id)).bind Disk.textOfBytes = .ok content) ∨
      (fs.readBytes (store.pathFor id)).bind Disk.textOfBytes = .error .notText := by
  rw [Holds, respond, answer, load, Store.checkId_of_isId hid]
  simp only [FileSystem.bind_apply, FileSystem.readText_apply]
  rcases (fs.readBytes (store.pathFor id)).bind Disk.textOfBytes with fault | content
  · cases fault <;> simp [FileSystem.pure_apply, Except.map]
  · simp [FileSystem.pure_apply, Except.map]

/-- What is stored is the files that are named after identifiers. -/
theorem holds_iff (h : fs.kind? store.root = some .directory) : Holds store fs id ↔
    Store.isId id = true ∧
      ∃ bytes, fs.entry? (fs.place (store.pathFor id)) = some (.file bytes) := by
  cases hid : Store.isId id with
  | false => simp [Holds, respond_load_of_not_id hid]
  | true =>
    rw [holds_iff_read hid, readBytes_pathFor h hid]
    rcases fs.entry? (fs.place (store.pathFor id)) with _ | _ | bytes
    · simp [Except.bind]
    · simp [Except.bind]
    · simp only [Except.bind, Disk.textOfBytes]
      cases String.fromUTF8? bytes <;> simp

/-! ### What is listed and not stored -/

/-- What is listed is what is stored and the directories that are named like files of the store. -/
theorem exists_listed_holds (h : fs.kind? store.root = some .directory) :
    ∃ ids, store.respond fs .list = (.ok (.ids ids), fs) ∧ ids.Pairwise (· < ·) ∧
      ∀ id, id ∈ ids ↔ Holds store fs id ∨
        Store.isId id = true ∧ fs.kind? (store.pathFor id) = some .directory := by
  obtain ⟨ids, hlist, hsorted, hmem⟩ := exists_listed h
  refine ⟨ids, hlist, hsorted, fun id => ?_⟩
  rw [hmem, holds_iff h, ← and_or_left]
  refine and_congr_right fun hid => ?_
  rw [kind?_pathFor_eq_directory_iff h hid]
  rcases fs.entry? (fs.place (store.pathFor id)) with _ | _ | _ <;> simp

/-- Nothing is stored in a directory that is named like a file of the store, but it is listed. -/
theorem not_listsHeld_of_directory (h : fs.kind? store.root = some .directory)
    (hid : Store.isId id = true) (hdirectory : fs.kind? (store.pathFor id) = some .directory) :
    ¬ ListsHeld store fs := by
  rintro ⟨ids, hlist, -, hheld⟩
  obtain ⟨ids', hlist', -, hlisted⟩ := exists_listed_holds h
  obtain rfl : ids = ids' := by
    rw [hlist] at hlist'
    cases hlist'
    rfl
  obtain ⟨-, bytes, hfile⟩ :=
    (holds_iff h).mp ((hheld id).mp ((hlisted id).mpr (.inr ⟨hid, hdirectory⟩)))
  rw [(kind?_pathFor_eq_directory_iff h hid).mp hdirectory] at hfile
  cases hfile

/-- **A store lists what it holds** and, beyond that, the directories that are named like the files
of it. -/
theorem listsHeld_iff (h : fs.kind? store.root = some .directory) :
    (∃ ids, store.respond fs .list = (.ok (.ids ids), fs) ∧ ids.Pairwise (· < ·) ∧
      ∀ id, id ∈ ids ↔ Holds store fs id ∨
        Store.isId id = true ∧ fs.kind? (store.pathFor id) = some .directory) ∧
    (ListsHeld store fs ↔
      ∀ id, Store.isId id = true → fs.kind? (store.pathFor id) ≠ some .directory) := by
  obtain ⟨ids, hlist, hsorted, hlisted⟩ := exists_listed_holds h
  refine ⟨⟨ids, hlist, hsorted, hlisted⟩, fun hheld id hid hdirectory => ?_,
    fun hnone => ⟨ids, hlist, hsorted, fun id => ?_⟩⟩
  · exact not_listsHeld_of_directory h hid hdirectory hheld
  · rw [hlisted]
    exact or_iff_left fun ⟨hid, hdirectory⟩ => hnone id hid hdirectory

/-! ### A store with one entry -/

/-- A store in a directory right below the working directory. -/
def docs : DirectoryStore := ⟨⟨"docs"⟩⟩

/-- A tree with this directory and one entry in it, which is named like the file of a text. -/
def storeWith (entry : Entry) : FileSystem :=
  ((FileSystem.empty []).put ([] ++ ["docs"]) .directory).put (["docs"] ++ ["home.txt"]) entry

theorem entry?_storeWith (entry : Entry) (place : Location) :
    FileSystem.entry? (storeWith entry) place =
      if place = ["docs", "home.txt"] then some entry
      else if place = ["docs"] then some .directory
      else if place = [] then some .directory else none := by
  rw [storeWith, FileSystem.entry?_put (List.concat_ne_nil _ _),
    FileSystem.entry?_put (List.concat_ne_nil _ _), FileSystem.entry?_empty]
  simp

theorem kind?_storeWith (entry : Entry) :
    FileSystem.kind? (storeWith entry) docs.root = some .directory := by
  have hrefusal : FileSystem.refusal? docs.root = none := by decide
  have hway : (storeWith entry).wayTo docs.root = [[]] := rfl
  have hplace : (storeWith entry).place docs.root = ["docs"] := rfl
  rw [FileSystem.kind?_eq_directory_iff, hway, hplace, List.forall_mem_singleton]
  exact ⟨hrefusal, FileSystem.entry?_nil _, entry?_storeWith entry ["docs"]⟩

theorem place_pathFor_storeWith (entry : Entry) (hid : Store.isId id = true) :
    (storeWith entry).place (docs.pathFor id) = ["docs", fileName id] := by
  rw [place_pathFor _ _ hid]
  rfl

/-- Bytes that are no text are stored, and the identifier of their file is listed. -/
theorem listsHeld_storeWith_file :
    (storeWith (.file ⟨#[0xff]⟩)).kind? docs.root = some .directory ∧
      ListsHeld docs (storeWith (.file ⟨#[0xff]⟩)) ∧
      Holds docs (storeWith (.file ⟨#[0xff]⟩)) "home" := by
  have hkind := kind?_storeWith (.file ⟨#[0xff]⟩)
  refine ⟨hkind, (listsHeld_iff hkind).2.mpr fun id hid => ?_, ?_⟩
  · rw [ne_eq, kind?_pathFor_eq_directory_iff hkind hid, place_pathFor_storeWith _ hid,
      entry?_storeWith]
    simp
  · refine (holds_iff hkind).mpr ⟨by decide, ⟨#[0xff]⟩, ?_⟩
    rw [place_pathFor_storeWith _ (by decide), entry?_storeWith]
    rfl

/-- A directory named like the file of a text is listed, but no text is stored under its name. -/
theorem not_listsHeld_storeWith_directory :
    (storeWith .directory).kind? docs.root = some .directory ∧
      ¬ ListsHeld docs (storeWith .directory) := by
  have hkind := kind?_storeWith .directory
  have hid : Store.isId "home" = true := by decide
  refine ⟨hkind, not_listsHeld_of_directory hkind hid ?_⟩
  rw [kind?_pathFor_eq_directory_iff hkind hid, place_pathFor_storeWith _ hid, entry?_storeWith]
  rfl

end Wireframe.DirectoryStore
