import Mathlib.Data.List.Sort
import Wireframe.Store.Memory
import Wireframe.Proofs.Store.Files

/-!
# Stores in a directory and stores in memory

A store in a directory answers as a store in memory does. What the two have in common is that the
files right below the directory are the texts in memory, each under the name for its identifier
(`DirectoryStore.Mirrors`); every answer leaves this as it is (`DirectoryStore.Mirrors.respond`), so
runs of any length give the same replies.

The directory is made when something is first saved, which depends on how its path is written. A
path that ends in a point, such as `docs/.`, leads to a directory and does not name one, so nothing
can be made there, and a null character makes a path unfit for everything. These are the only
exceptions (`DirectoryStore.replies_eq_iff`).
-/

namespace Wireframe

namespace MemoryStore

/-- The replies to requests that are answered one after the other. -/
def replies (store : MemoryStore) : List Store.Request → List (Except StoreError Store.Reply)
  | [] => []
  | request :: rest => (store.answer request).1 :: (store.answer request).2.replies rest

end MemoryStore

namespace DirectoryStore

open FileSystem (Clear refusal? refusal?_eq_none_iff kind?_eq_directory_iff_through)

/-- The replies to requests that are answered one after the other. -/
def replies (store : DirectoryStore) (fs : FileSystem) :
    List Store.Request → List (Except StoreError Store.Reply)
  | [] => []
  | request :: rest =>
    (store.respond fs request).1 :: store.replies (store.respond fs request).2 rest

/-- Whether a path does not end in a name but in a point, with slashes behind it or none. -/
def EndsInPoint (path : Path) : Prop := (FileSystem.dropSlashes path.split.2).getLast? = some "."

instance (path : Path) : Decidable (EndsInPoint path) :=
  inferInstanceAs (Decidable ((FileSystem.dropSlashes path.split.2).getLast? = some "."))

/-- A path that ends in a point does not end in a name. -/
theorem EndsInPoint.not_ends {path : Path} (h : EndsInPoint path) (ps : List String) (name : String)
    (slashes : List String) : ¬ path.Ends ps name slashes := by
  intro hends
  rw [EndsInPoint, FileSystem.dropSlashes_of_ends hends, List.getLast?_concat,
    Option.some.injEq] at h
  exact absurd hends.isName.not_idle (by rw [h]; decide)

/-- Whether a path can be that of a new store: it only leads down, through nothing but directories
and missing places, to a place that is missing or an empty directory. -/
structure Vacant (fs : FileSystem) (root : Path) : Prop where
  nonempty : root.text ≠ ""
  down : Path.Component.up ∉ root.components
  clear : fs.Clear (fs.through root)
  empty : ∀ rest, rest ≠ [] → fs.entry? (fs.place root ++ rest) = none

/-- Whether the files below a directory are the texts of a store in memory. -/
structure Mirrors (root : Path) (memory : MemoryStore) (fs : FileSystem) : Prop where
  wellFormed : fs.WellFormed
  clear : fs.Clear (fs.through root)
  /-- The directory is there, or its path is one under which it can be made. -/
  makeable : fs.entry? (fs.place root) = some .directory ∨ ¬ EndsInPoint root
  isId : ∀ id ∈ memory.documents, Store.isId id = true
  file : ∀ id, Store.isId id = true → fs.entry? (fs.place root ++ [fileName id]) =
    memory.documents[id]?.map fun content => .file content.toUTF8
  only : ∀ rest, rest ≠ [] → fs.entry? (fs.place root ++ rest) ≠ none →
    ∃ id, Store.isId id = true ∧ rest = [fileName id]

section Root

variable {fs : FileSystem} {root : Path} {memory : MemoryStore}

/-- A root without steps up has no piece for one. -/
theorem ne_up_of_components (h : Path.Component.up ∉ root.components) :
    ∀ p ∈ root.split.2, p ≠ ".." := by
  rintro p hp rfl
  refine h (List.mem_append_right _ ?_)
  exact List.mem_filterMap.mpr ⟨"..", hp, by decide⟩

/-- Where a path that only leads down leads to a directory, there are directories on the way. -/
theorem kind?_of_place (hfs : fs.WellFormed) (hrefusal : refusal? root = none)
    (hdown : ∀ p ∈ root.split.2, p ≠ "..")
    (h : fs.entry? (fs.place root) = some .directory) : fs.kind? root = some .directory := by
  refine kind?_eq_directory_iff_through.mpr ⟨hrefusal, fun place hplace => ?_⟩
  obtain ⟨rest, hrest⟩ := FileSystem.prefix_of_mem_through hdown hplace
  by_cases hnil : rest = []
  · rw [hnil, List.append_nil] at hrest
    rw [hrest, h]
  · refine hfs.directory_above hnil ?_
    rw [hrest, h]
    exact Option.some_ne_none _

/-- What is below the place of a path that only leads down is not on its way. -/
theorem append_not_mem_through (hdown : ∀ p ∈ root.split.2, p ≠ "..") {rest : Location}
    (hne : rest ≠ []) : fs.place root ++ rest ∉ fs.through root := by
  intro hmem
  have hlength := (FileSystem.prefix_of_mem_through hdown hmem).length_le
  rw [List.length_append] at hlength
  exact hne (List.eq_nil_of_length_eq_zero (by omega))

/-- A path that goes nowhere leads through where it starts. -/
theorem eq_origin_of_mem_through (hidle : root.split.2.all Path.isIdle = true) {place : Location}
    (hmem : place ∈ fs.through root) : place = fs.origin root := by
  have hplace : fs.place root = fs.origin root := FileSystem.reach_idle hidle _
  rw [FileSystem.through, hplace, List.mem_append, List.mem_singleton] at hmem
  exact hmem.elim (FileSystem.eq_of_mem_way_idle hidle) id

theorem kind?_of_idle (hfs : fs.WellFormed) (hrefusal : refusal? root = none)
    (hidle : root.split.2.all Path.isIdle = true) : fs.kind? root = some .directory := by
  refine kind?_eq_directory_iff_through.mpr ⟨hrefusal, fun place hmem => ?_⟩
  rw [eq_origin_of_mem_through hidle hmem, hfs.directory_origin]

/-- The directory of a store can be made if no file is in the way and its path does not end in a
point. -/
theorem makeDirectories_of_not_point (hfs : fs.WellFormed) (hclean : root.Clean)
    (hclear : fs.Clear (fs.through root)) (hpoint : ¬ EndsInPoint root) :
    (fs.makeDirectories root).1 = .ok () := by
  by_cases htext : root.text = ""
  · obtain ⟨above, habove⟩ := root.exists_ancestors_eq
    rw [FileSystem.makeDirectories_eq, habove, fs.makeChain_empty htext]
  have hrefusal := refusal?_eq_none_iff.mpr ⟨hclean, htext⟩
  obtain ⟨slashes, hslashes, hpieces, hnil | ⟨init, last, hinit, hlast⟩⟩ :=
    Path.exists_rdropWhile_append (· == "") root.split.2
  · -- only slashes lead to where the path starts
    rw [hnil, List.nil_append] at hpieces
    have hidle := FileSystem.all_isIdle hslashes
    rw [← hpieces] at hidle
    rw [FileSystem.makeDirectories_of_directory (kind?_of_idle hfs hrefusal hidle)]
  · rw [EndsInPoint, FileSystem.dropSlashes_eq, hinit, List.getLast?_concat,
      Option.some.injEq] at hpoint
    have hidle : Path.isIdle last = false := by
      rw [Path.isIdle, hlast, Bool.false_or, beq_eq_false_iff_ne]
      exact hpoint
    rw [hinit, List.append_assoc, List.singleton_append] at hpieces
    exact FileSystem.makeDirectories_of_clear hfs hrefusal (a := root.split.1) (by rw [← hpieces])
      hidle hslashes hclear

/-- So it can be made or is there. -/
theorem exists_makeDirectories (h : Mirrors root memory fs) (hrefusal : refusal? root = none)
    (hdown : ∀ p ∈ root.split.2, p ≠ "..") :
    ∃ fs', fs.makeDirectories root = (.ok (), fs') ∧ fs'.WellFormed ∧
      fs.Grows (fs.through root) fs' ∧ fs'.kind? root = some .directory := by
  obtain ⟨hclean, htext⟩ := refusal?_eq_none_iff.mp hrefusal
  have hok : (fs.makeDirectories root).1 = .ok () := by
    rcases h.makeable with hthere | hpoint
    · have hkind := kind?_of_place h.wellFormed hrefusal hdown hthere
      rw [FileSystem.makeDirectories_of_directory hkind]
    · exact makeDirectories_of_not_point h.wellFormed hclean h.clear hpoint
  obtain ⟨hgrows, hwell⟩ := FileSystem.makeDirectories_grows h.wellFormed root
  exact ⟨_, by rw [← hok], hwell, hgrows, FileSystem.kind?_of_makeDirectories htext hok⟩

end Root

/-! ### Answers -/

namespace Mirrors

variable {fs fs' : FileSystem} {store : DirectoryStore} {memory : MemoryStore} {id content : String}

/-- The store stays mirrored when only directories on the way to its root are made. -/
theorem of_grows (h : Mirrors store.root memory fs) (hdown : ∀ p ∈ store.root.split.2, p ≠ "..")
    (hfs' : fs'.WellFormed) (hgrows : fs.Grows (fs.through store.root) fs') :
    Mirrors store.root memory fs' := by
  have hplace := hgrows.place_eq store.root
  have hbelow {rest : Location} (hne : rest ≠ []) :
      fs'.entry? (fs.place store.root ++ rest) = fs.entry? (fs.place store.root ++ rest) :=
    hgrows.entry_of_not_mem (append_not_mem_through hdown hne)
  refine ⟨hfs', ?_, ?_, h.isId, fun id hid => ?_, fun rest hne hentry => ?_⟩
  · rw [hgrows.through_eq, hgrows.clear_iff]
    exact h.clear
  · rw [hplace]
    exact h.makeable.imp_left hgrows.entry_of_some
  · rw [hplace, hbelow (List.cons_ne_nil _ _)]
    exact h.file id hid
  · rw [hplace, hbelow hne] at hentry
    exact h.only rest hne hentry

/-- With the file for an identifier put into the directory, the text is put into memory. -/
theorem put (h : Mirrors store.root memory fs) (hdown : ∀ p ∈ store.root.split.2, p ≠ "..")
    (hkind : fs.kind? store.root = some .directory) (hid : Store.isId id = true) {content : String}
    (hwell : (fs.put (fs.place store.root ++ [fileName id]) (.file content.toUTF8)).WellFormed) :
    Mirrors store.root ⟨memory.documents.insert id content⟩
      (fs.put (fs.place store.root ++ [fileName id]) (.file content.toUTF8)) := by
  have hput := FileSystem.entry?_put (List.concat_ne_nil (fileName id) (fs.place store.root)) fs
    (.file content.toUTF8)
  -- the place of the file is below the directory, so it is not on the way to it
  have hkept {place : Location} (hmem : place ∈ fs.through store.root) :
      FileSystem.entry? (fs.put (fs.place store.root ++ [fileName id]) (.file content.toUTF8))
        place = fs.entry? place := by
    refine (hput place).trans (if_neg ?_)
    rintro rfl
    exact append_not_mem_through hdown (List.cons_ne_nil _ _) hmem
  refine ⟨hwell, fun place hmem => ?_, .inl ?_, fun id' hid' => ?_, fun id' hid' => ?_,
    fun rest hne hentry => ?_⟩
  · rw [hkept hmem]
    exact h.clear place hmem
  · exact (hkept (fs.place_mem_through store.root)).trans
      (FileSystem.kind?_eq_directory_iff.mp hkind).2.2
  · rw [Std.ExtTreeMap.mem_insert, Std.compare_eq_iff_eq] at hid'
    rcases hid' with rfl | hid'
    · exact hid
    · exact h.isId id' hid'
  · refine (hput _).trans ?_
    by_cases heq : id = id'
    · subst heq
      rw [Std.ExtTreeMap.getElem?_insert_self]
      exact if_pos rfl
    · have hother :
          fs.place store.root ++ [fileName id'] ≠ fs.place store.root ++ [fileName id] := by
        intro hsame
        have hname := List.append_cancel_left hsame
        exact heq (fileName_injective hid hid' (List.singleton_inj.mp hname.symm))
      refine (if_neg hother).trans ((h.file id' hid').trans ?_)
      rw [Std.ExtTreeMap.getElem?_insert, if_neg (by rwa [Std.compare_eq_iff_eq])]
  · change FileSystem.entry? (fs.put _ _) (fs.place store.root ++ rest) ≠ none at hentry
    rw [hput] at hentry
    split at hentry
    · rename_i hsame
      exact ⟨id, hid, List.append_cancel_left hsame⟩
    · exact h.only rest hne hentry

/-- Once the directory is there, the file for an identifier can be written, and the texts in memory
change in the same way. -/
theorem writeBytes (h : Mirrors store.root memory fs) (hroot : store.root.Clean)
    (hdown : ∀ p ∈ store.root.split.2, p ≠ "..") (hkind : fs.kind? store.root = some .directory)
    (hid : Store.isId id = true) (content : String) :
    ∃ fs', fs.writeBytes (store.pathFor id) content.toUTF8 = (.ok (), fs') ∧
      Mirrors store.root ⟨memory.documents.insert id content⟩ fs' := by
  have hthrough := (kind?_eq_directory_iff_through.mp hkind).2
  have hplace := place_pathFor store fs hid
  have hfree : fs.entry? (fs.place (store.pathFor id)) ≠ some .directory := by
    rw [hplace, h.file id hid]
    cases memory.documents[id]? <;> simp
  have hwrite := FileSystem.writeBytes_of_way (refusal?_pathFor store hid hroot)
    (ends_pathFor store hid)
    (fun place hmem => hthrough place (wayTo_pathFor_subset store fs hid hmem)) hfree content.toUTF8
  have hwell := h.wellFormed.writeBytes (store.pathFor id) content.toUTF8
  rw [hplace] at hwrite
  rw [hwrite] at hwell
  exact ⟨_, hwrite, h.put hdown hkind hid hwell⟩

/-- What is read from the file for an identifier is the text in memory. -/
theorem readBytes (h : Mirrors store.root memory fs) (hroot : refusal? store.root = none)
    (hdown : ∀ p ∈ store.root.split.2, p ≠ "..") (hid : Store.isId id = true) :
    fs.readBytes (store.pathFor id) = match memory.documents[id]? with
      | some content => .ok content.toUTF8
      | none => .error .notFound := by
  have hrefusal := refusal?_pathFor store hid (refusal?_eq_none_iff.mp hroot).1
  have hplace := place_pathFor store fs hid
  have hfile := h.file id hid
  cases hcontent : memory.documents[id]? with
  | some content =>
    rw [hcontent, Option.map_some] at hfile
    -- a file that is held shows that the root is there
    have hthere : fs.entry? (fs.place store.root) = some .directory :=
      h.wellFormed.inside _ _ (by rw [hfile]; exact Option.some_ne_none _)
    have hthrough := (kind?_eq_directory_iff_through.mp
      (kind?_of_place h.wellFormed hroot hdown hthere)).2
    rw [FileSystem.readBytes_eq_ok_iff, hplace]
    exact ⟨hrefusal, fun place hmem => hthrough place (wayTo_pathFor_subset store fs hid hmem),
      hfile⟩
  | none =>
    rw [hcontent, Option.map_none, ← hplace] at hfile
    rcases FileSystem.find_of_clear hrefusal fun place hmem =>
      h.clear place (wayTo_pathFor_subset store fs hid hmem) with ⟨entry, hfind⟩ | hfind
    · rw [(FileSystem.find_eq_ok_iff.mp hfind).2.2.2] at hfile
      cases hfile
    · simp only [FileSystem.readBytes, hfind]

/-- The identifiers of the files in the directory are those in memory. -/
theorem mem_filterMap_idOf? (h : Mirrors store.root memory fs) {names : List String}
    (hnames : ∀ name, name ∈ names ↔ fs.entry? (fs.place store.root ++ [name]) ≠ none) :
    id ∈ names.filterMap idOf? ↔ id ∈ memory.documents := by
  have hmem : id ∈ memory.documents ↔ memory.documents[id]? ≠ none := by
    rw [Std.ExtTreeMap.mem_iff_isSome_getElem?, Option.isSome_iff_ne_none]
  rw [List.mem_filterMap]
  constructor
  · rintro ⟨name, hname, hidOf⟩
    obtain ⟨hid, rfl⟩ := idOf?_eq_some_iff.mp hidOf
    rw [hnames, h.file id hid] at hname
    rw [hmem]
    intro hnone
    rw [hnone] at hname
    exact hname rfl
  · intro hdocument
    have hid := h.isId id hdocument
    refine ⟨fileName id, ?_, idOf?_fileName hid⟩
    rw [hmem] at hdocument
    rw [hnames, h.file id hid]
    simpa using hdocument

/-- The identifiers in increasing order are the keys in memory. -/
theorem mergeSort_filterMap_idOf? (h : Mirrors store.root memory fs) {names : List String}
    (hnodup : names.Nodup)
    (hnames : ∀ name, name ∈ names ↔ fs.entry? (fs.place store.root ++ [name]) ≠ none) :
    (names.filterMap idOf?).mergeSort (fun a b => decide (a ≤ b)) = memory.documents.keys := by
  have hperm : (names.filterMap idOf?).Perm memory.documents.keys := by
    rw [List.perm_ext_iff_of_nodup (nodup_filterMap_idOf? hnodup) Std.ExtTreeMap.nodup_keys]
    intro id
    rw [h.mem_filterMap_idOf? hnames, Std.ExtTreeMap.mem_keys]
  have hkeys : memory.documents.keys.Pairwise (· ≤ ·) := by
    refine Std.ExtTreeMap.ordered_keys.imp fun hlt => Std.le_of_lt ?_
    exact compareOfLessAndEq_eq_lt.mp hlt
  exact ((List.mergeSort_perm _ _).trans hperm).eq_of_pairwise
    (fun _ _ _ _ => String.le_antisymm) (pairwise_mergeSort _) hkeys

/-! ### Requests -/

/-- Whether a request is answered as by the store in memory, and what the two stores have in common
stays. -/
def Agrees (store : DirectoryStore) (memory : MemoryStore) (fs : FileSystem)
    (request : Store.Request) : Prop :=
  (store.respond fs request).1 = (memory.answer request).1 ∧
    Mirrors store.root (memory.answer request).2 (store.respond fs request).2

/-- Saving answers alike and keeps the mirror. -/
theorem save (h : Mirrors store.root memory fs) (hroot : refusal? store.root = none)
    (hdown : ∀ p ∈ store.root.split.2, p ≠ "..") (id content : String) :
    Agrees store memory fs (.save id content) := by
  rw [Agrees, MemoryStore.answer, MemoryStore.save]
  cases hid : Store.isId id with
  | false =>
    rw [respond_save_of_not_id hid, Store.checkId_of_not_isId hid]
    exact ⟨rfl, h⟩
  | true =>
    obtain ⟨fs', hmake, hfs', hgrows, hkind⟩ := exists_makeDirectories h hroot hdown
    obtain ⟨fs'', hwrite, hmirrors⟩ := (h.of_grows hdown hfs' hgrows).writeBytes
      (refusal?_eq_none_iff.mp hroot).1 hdown hkind hid content
    rw [respond_save hid hmake hwrite, Store.checkId_of_isId hid]
    exact ⟨rfl, hmirrors⟩

/-- Loading answers alike and keeps the mirror. -/
theorem load (h : Mirrors store.root memory fs) (hroot : refusal? store.root = none)
    (hdown : ∀ p ∈ store.root.split.2, p ≠ "..") (id : String) :
    Agrees store memory fs (.load id) := by
  rw [Agrees, MemoryStore.answer, MemoryStore.load]
  cases hid : Store.isId id with
  | false =>
    rw [respond_load_of_not_id hid, Store.checkId_of_not_isId hid]
    exact ⟨rfl, h⟩
  | true =>
    have hread := h.readBytes hroot hdown hid
    rw [Store.checkId_of_isId hid]
    cases hcontent : memory.documents[id]? with
    | some content =>
      rw [hcontent] at hread
      rw [respond_load hid hread]
      exact ⟨rfl, h⟩
    | none =>
      rw [hcontent] at hread
      rw [respond_load_of_error hid hread, if_pos rfl]
      exact ⟨rfl, h⟩

/-- If the directory is missing, nothing is in memory. -/
theorem keys_of_missing (h : Mirrors store.root memory fs)
    (hplace : fs.entry? (fs.place store.root) = none) : memory.documents.keys = [] := by
  -- nothing is below a place where there is nothing, so no identifier is in use
  have hnone (name : String) : name ∈ ([] : List String) ↔
      fs.entry? (fs.place store.root ++ [name]) ≠ none := by
    refine ⟨fun hname => absurd hname List.not_mem_nil, fun hentry => ?_⟩
    rw [h.wellFormed.inside _ _ hentry] at hplace
    cases hplace
  rw [← h.mergeSort_filterMap_idOf? List.nodup_nil hnone, List.filterMap_nil, List.mergeSort_nil]

/-- Listing answers alike and keeps the mirror. -/
theorem list (h : Mirrors store.root memory fs) (hroot : refusal? store.root = none)
    (hdown : ∀ p ∈ store.root.split.2, p ≠ "..") : Agrees store memory fs .list := by
  rw [Agrees, MemoryStore.answer, MemoryStore.list]
  rcases h.clear.directory_or_none (fs.place_mem_through store.root) with hplace | hplace
  · have hkind := kind?_of_place h.wellFormed hroot hdown hplace
    obtain ⟨names, hnames, hnodup, hmem⟩ := FileSystem.names_of_directory hkind
    rw [respond_list hkind hnames, h.mergeSort_filterMap_idOf? hnodup hmem]
    exact ⟨rfl, h⟩
  · have hkind : fs.kind? store.root = none := by
      rw [Option.eq_none_iff_forall_ne_some]
      intro kind hsome
      have hentry := (FileSystem.kind?_eq_some_iff.mp hsome).2.2
      rw [hplace] at hentry
      cases hentry
    rw [respond_list_of_missing hkind, h.keys_of_missing hplace]
    exact ⟨rfl, h⟩

/-- Each answer is that of the store in memory, and what the two stores have in common stays. -/
theorem respond (h : Mirrors store.root memory fs) (hroot : refusal? store.root = none)
    (hdown : ∀ p ∈ store.root.split.2, p ≠ "..") (request : Store.Request) :
    Agrees store memory fs request := by
  cases request with
  | save id content => exact h.save hroot hdown id content
  | load id => exact h.load hroot hdown id
  | list => exact h.list hroot hdown

/-- Runs of any length give the same replies. -/
theorem replies_eq (h : Mirrors store.root memory fs) (hroot : refusal? store.root = none)
    (hdown : ∀ p ∈ store.root.split.2, p ≠ "..") (requests : List Store.Request) :
    store.replies fs requests = memory.replies requests := by
  induction requests generalizing fs memory with
  | nil => rfl
  | cons request rest ih =>
    obtain ⟨hreply, hnext⟩ := h.respond hroot hdown request
    rw [replies, MemoryStore.replies, hreply, ih hnext]

end Mirrors

/-- A vacant root mirrors the empty memory. -/
theorem mirrors_of_vacant {fs : FileSystem} {root : Path} (hfs : fs.WellFormed)
    (h : Vacant fs root)
    (hmakeable : fs.entry? (fs.place root) = some .directory ∨ ¬ EndsInPoint root) :
    Mirrors root MemoryStore.empty fs where
  wellFormed := hfs
  clear := h.clear
  makeable := hmakeable
  isId id hid := absurd hid Std.ExtTreeMap.not_mem_empty
  file id _ := by
    rw [h.empty _ (List.cons_ne_nil _ _)]
    simp [MemoryStore.empty]
  only rest hne hentry := absurd (h.empty rest hne) hentry

/-! ### Directories that cannot be made -/

section Exceptions

variable {fs : FileSystem} {store : DirectoryStore}

/-- If the path of the directory holds a null character, what is missing is not reported as
missing. -/
theorem respond_load_of_null (h : ¬ store.root.Clean) :
    (store.respond fs (.load "a")).1 ≠ .error (.notFound "a") := by
  have hid : Store.isId "a" = true := by decide
  have hnull : '\x00' ∈ (store.pathFor "a").text.toList := by
    have hclean := mt (clean_pathFor store hid).mp h
    rwa [Path.Clean, not_not] at hclean
  have hread : fs.readBytes (store.pathFor "a") = .error .nullInPath := by
    rw [FileSystem.readBytes, FileSystem.find, refusal?, if_pos (by simpa using hnull)]
  rw [respond_load_of_error hid hread, if_neg (by decide)]
  simp

/-- A path that ends in a point leads to a directory that is there, or that is made for what the
path lies in, or it cannot be made. -/
theorem makeDirectories_of_point (hfs : fs.WellFormed) {root : Path}
    (hrefusal : refusal? root = none) (hpoint : EndsInPoint root)
    (hplace : fs.entry? (fs.place root) ≠ some .directory)
    (hparent : ∀ parent, root.parent? = some parent → fs.place root ∉ fs.through parent) :
    (fs.makeDirectories root).1 ≠ .ok () := by
  intro hok
  have hpath := (refusal?_eq_none_iff.mp hrefusal).2
  have hkind := FileSystem.kind?_of_makeDirectories hpath hok
  have hthere := (FileSystem.kind?_eq_directory_iff.mp hkind).2.2
  -- nothing is made at the place itself, by an attempt that the path does not allow
  have hattempt (fs : FileSystem) : (fs.makeDirectory root).2 = fs := by
    rcases fs.makeDirectory_cases root with ⟨fault, heq⟩ | ⟨-, -, -, ps, name, slashes, hends, -⟩
    · rw [heq]
    · exact absurd hends (hpoint.not_ends ps name slashes)
  rcases root.eq_idle_or_eq_append with hidle | ⟨ps, last, idles, hsplit, hlast, hidles⟩
  · exact hplace (FileSystem.kind?_eq_directory_iff.mp (kind?_of_idle hfs hrefusal hidle)).2.2
  · obtain ⟨parent, hsome⟩ : ∃ parent, root.parent? = some parent :=
      ⟨_, Path.parent?_eq hsplit hlast hidles⟩
    have hgrows := (FileSystem.makeDirectories_grows hfs parent).1
    rw [FileSystem.makeDirectories_eq] at hgrows
    rw [FileSystem.makeDirectories_eq, Path.ancestors_of_parent hsome] at hok hthere
    rcases fs.makeChain_cases hpath parent.ancestors with
      ⟨-, heq⟩ | ⟨-, ⟨-, heq⟩ | ⟨fault, -, heq⟩⟩
    · rw [heq, FileSystem.settle_snd, hattempt] at hthere
      exact hplace hthere
    · rw [heq, FileSystem.settle_snd, hattempt, hgrows.place_eq,
        hgrows.entry_of_not_mem (hparent parent hsome)] at hthere
      exact hplace hthere
    · rw [heq] at hok
      cases hok

/-- What a path that only leads down lies in is above the place of the path. -/
theorem place_not_mem_through_parent (hfs : fs.WellFormed) {root parent : Path}
    (hrefusal : refusal? root = none) (hdown : ∀ p ∈ root.split.2, p ≠ "..")
    (hplace : fs.entry? (fs.place root) ≠ some .directory) (hparent : root.parent? = some parent) :
    fs.place root ∉ fs.through parent := by
  rcases root.eq_idle_or_eq_append with hidle | ⟨ps, last, idles, hsplit, hlast, hidles⟩
  · have hkind := kind?_of_idle hfs hrefusal hidle
    exact absurd (FileSystem.kind?_eq_directory_iff.mp hkind).2.2 hplace
  · have hpieces : root.split.2 = ps ++ last :: idles := congrArg Prod.snd hsplit
    have hmem : last ∈ root.split.2 := by simp [hpieces]
    have hname : Path.IsName last :=
      (refusal?_eq_none_iff.mp hrefusal).1.isName hmem hlast (hdown last hmem)
    have hroot : fs.place root = FileSystem.reach (fs.origin root) ps ++ [last] := by
      rw [FileSystem.place, hsplit, List.append_cons, FileSystem.reach_append,
        FileSystem.reach_idle hidles, FileSystem.reach_append]
      exact FileSystem.step_name hname _
    rw [Path.parent?_eq hsplit hlast hidles, Option.some.injEq] at hparent
    rw [← hparent, FileSystem.mem_through_parent hsplit hlast, FileSystem.way_concat, hroot]
    intro hmem
    -- the way down to the parent cannot reach a place with one more name
    have hprefix : FileSystem.reach (fs.origin root) ps ++ [last] <+:
        FileSystem.reach (fs.origin root) ps := by
      rcases List.mem_append.mp hmem with hmem | hmem
      · exact FileSystem.prefix_of_mem_way (fun p hp => hdown p (by simp [hpieces, hp])) hmem
      · rw [List.mem_singleton.mp hmem]
    have hlength := hprefix.length_le
    rw [List.length_append, List.length_singleton] at hlength
    omega

/-- Then saving fails, while a store in memory saves. -/
theorem replies_save_ne (hfs : fs.WellFormed) (h : Vacant fs store.root) (hclean : store.root.Clean)
    (hpoint : EndsInPoint store.root) (hplace : fs.entry? (fs.place store.root) ≠ some .directory)
    {id : String} (hid : Store.isId id = true) (content : String) :
    store.replies fs [.save id content] ≠ MemoryStore.empty.replies [.save id content] := by
  intro hsame
  rw [replies, MemoryStore.replies, List.cons.injEq, MemoryStore.answer, MemoryStore.save,
    Store.checkId_of_isId hid] at hsame
  have hrefusal := refusal?_eq_none_iff.mpr ⟨hclean, h.nonempty⟩
  have hfail := makeDirectories_of_point hfs hrefusal hpoint hplace fun parent hparent =>
    place_not_mem_through_parent hfs hrefusal (ne_up_of_components h.down) hplace hparent
  match hmake : fs.makeDirectories store.root with
  | (.ok (), fs') => exact hfail (by rw [hmake])
  | (.error fault, fs') =>
    have hreply := hsame.1
    rw [respond_save_of_error hid hmake] at hreply
    cases hreply

end Exceptions

/-- **When a store in a directory is like one in memory.** If the directory is still to be made, or
empty, the answers are the same, whatever is asked, if and only if its path holds no null character
and does not end in a point unless the directory is there. -/
theorem replies_eq_iff {store : DirectoryStore} {fs : FileSystem} (hfs : fs.WellFormed)
    (h : Vacant fs store.root) :
    (∀ requests, store.replies fs requests = MemoryStore.empty.replies requests) ↔
      store.root.Clean ∧
        (fs.entry? (fs.place store.root) = some .directory ∨ ¬ EndsInPoint store.root) := by
  have hdown := ne_up_of_components h.down
  constructor
  · intro hsame
    have hclean : store.root.Clean := by
      by_contra hnull
      refine respond_load_of_null hnull (?_ : (store.respond fs _).1 = _)
      have hload := hsame [.load "a"]
      rw [replies, MemoryStore.replies, List.cons.injEq] at hload
      exact hload.1
    refine ⟨hclean, ?_⟩
    by_contra hnot
    rw [not_or, not_not] at hnot
    have hid : Store.isId "a" = true := by decide
    exact replies_save_ne hfs h hclean hnot.2 hnot.1 hid "" (hsame _)
  · rintro ⟨hclean, hmakeable⟩ requests
    exact (mirrors_of_vacant hfs h hmakeable).replies_eq
      (refusal?_eq_none_iff.mpr ⟨hclean, h.nonempty⟩) hdown requests

/-! ### Stores in an empty tree -/

theorem entry?_place_empty {root : Path} (h : (FileSystem.empty []).place root ≠ [])
    (rest : Location) :
    FileSystem.entry? (.empty []) ((FileSystem.empty []).place root ++ rest) = none := by
  rw [FileSystem.entry?_empty, if_neg]
  rw [List.prefix_nil, List.append_eq_nil_iff]
  exact fun hnil => h hnil.1

/-- Below an empty disk every root is vacant. -/
theorem vacant_of_empty {root : Path} (hnonempty : root.text ≠ "")
    (hdown : Path.Component.up ∉ root.components)
    (hplace : (FileSystem.empty []).place root ≠ []) : Vacant (FileSystem.empty []) root where
  nonempty := hnonempty
  down := hdown
  clear place _ bytes hentry := by
    rw [FileSystem.entry?_empty] at hentry
    split at hentry <;> cases hentry
  empty rest _ := entry?_place_empty hplace rest

theorem replies_eq_docs : (FileSystem.empty []).WellFormed ∧ Vacant (FileSystem.empty []) ⟨"docs"⟩ ∧
    ∀ requests, (DirectoryStore.mk ⟨"docs"⟩).replies (FileSystem.empty []) requests =
      MemoryStore.empty.replies requests := by
  have hfs : (FileSystem.empty []).WellFormed := FileSystem.wellFormed_empty nofun
  have hvacant : Vacant (FileSystem.empty []) (DirectoryStore.mk ⟨"docs"⟩).root :=
    vacant_of_empty (by decide) (by decide) (by decide)
  exact ⟨hfs, hvacant, (replies_eq_iff hfs hvacant).mpr ⟨by decide, .inr (by decide)⟩⟩

theorem replies_ne_docs_point : (FileSystem.empty []).WellFormed ∧
    Vacant (FileSystem.empty []) ⟨"docs/."⟩ ∧
    (DirectoryStore.mk ⟨"docs/."⟩).replies (FileSystem.empty []) [.save "home" "# Home"] ≠
      MemoryStore.empty.replies [.save "home" "# Home"] := by
  have hfs : (FileSystem.empty []).WellFormed := FileSystem.wellFormed_empty nofun
  have hplace : (FileSystem.empty []).place ⟨"docs/."⟩ ≠ [] := by decide
  have hvacant : Vacant (FileSystem.empty []) (DirectoryStore.mk ⟨"docs/."⟩).root :=
    vacant_of_empty (by decide) (by decide) hplace
  refine ⟨hfs, hvacant, replies_save_ne hfs hvacant (by decide) (by decide) ?_ (by decide) _⟩
  have hnone := entry?_place_empty hplace []
  rw [List.append_nil] at hnone
  rw [hnone]
  nofun

end DirectoryStore

end Wireframe
