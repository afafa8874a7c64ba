import Wireframe.Command.Run
import Wireframe.Proofs.Batch.Sources
import Wireframe.Proofs.Naming.Slugs
import Wireframe.Proofs.Store.Files
import Wireframe.Proofs.Store.Refinement

/-!
# Pages in a store

A page that is stored without an identifier gets one from its name. Whatever the name is, this is an
identifier (`Naming.isId_importId`), so storing the page does not fail for that. Once it is stored,
it is printed as it was, and nothing else in the store has changed. What storing can fail for is the
directory of the store (`DirectoryStore.Makeable`), as when its path ends in a point, or a directory
where the file is to be (`Command.keeps_iff`).
-/

namespace Wireframe

/-! ### Identifiers -/

namespace Naming

theorem isIdChar_of_isSlugChar {c : Char} (h : Text.isSlugChar c = true) :
    Store.isIdChar c = true := by
  rw [Store.isIdChar, Text.isAlphanum_of_isSlugChar h]
  rfl

/-- A slug has characters of ids only. -/
theorem isIdChar_of_mem_slug {name : List Char} {c : Char} (h : c ∈ Text.slug name) :
    Store.isIdChar c = true := by
  rw [Text.slug] at h
  rcases Text.mem_hyphenate h with hslug | hhyphen
  · exact isIdChar_of_isSlugChar hslug
  · rw [hhyphen]
    rfl

/-- Whatever a page is called, its name gives an identifier. -/
theorem isId_importId (text stem : String) : Store.isId (importId text stem) = true := by
  rw [Store.isId, Bool.and_eq_true, importId, List.all_eq_true]
  refine ⟨by simp, fun c hc => ?_⟩
  rw [String.toList_append, List.mem_append] at hc
  rcases hc with hopening | hslug
  · have hall : "loaded-".toList.all Store.isIdChar = true := by decide
    exact List.all_eq_true.mp hall c hopening
  · rw [slug, String.toList_ofList] at hslug
    exact isIdChar_of_mem_slug hslug

end Naming

namespace DirectoryStore

open FileSystem (refusal? refusal?_eq_none_iff kind?_eq_directory_iff_through)

variable {fs fs' : FileSystem} {root : Path}

/-! ### Directories of stores -/

/-- Whether the directory of a store can be made or is there, if no file is in the way: its path
does not end in a point, or it leads to a directory that is there or that is made for what it lies
in. -/
def Makeable (fs : FileSystem) (root : Path) : Prop :=
  ¬ EndsInPoint root ∨ fs.entry? (fs.place root) = some .directory ∨
    ∃ parent, root.parent? = some parent ∧ fs.place root ∈ fs.through parent

section Parent

variable {a : Path.Anchor} {ps idles : List String} {last : String}

/-- The parent of a clean root is clean. -/
theorem clean_parent (hclean : root.Clean) (h : root.split = (a, ps ++ last :: idles))
    (hlast : Path.isIdle last = false) : (Path.build a (Path.trimPieces ps)).Clean := by
  rw [Path.clean_iff, h, List.forall_mem_append] at hclean
  rw [Path.clean_iff]
  rcases Path.split_parent h hlast with hparent | ⟨-, hparent⟩ <;> rw [hparent]
  · obtain ⟨rest, -, hps, -⟩ := Path.exists_trimPieces_append ps
    rw [hps, List.forall_mem_append] at hclean
    exact hclean.1.1
  · exact List.forall_mem_singleton.mpr (by decide)

/-- Points at the end of a path are not part of its parent. -/
theorem not_endsInPoint_parent (h : root.split = (a, ps ++ last :: idles))
    (hlast : Path.isIdle last = false) : ¬ EndsInPoint (Path.build a (Path.trimPieces ps)) := by
  intro hpoint
  rw [EndsInPoint] at hpoint
  rcases Path.split_parent h hlast with hparent | ⟨-, hparent⟩ <;> rw [hparent] at hpoint
  · obtain ⟨-, -, -, hnil | ⟨init, last', hinit, hlast'⟩⟩ := Path.exists_trimPieces_append ps
    · rw [hnil] at hpoint
      cases hpoint
    · have hempty : (last' == "") = false := (Bool.or_eq_false_iff.mp hlast').1
      rw [hinit, FileSystem.dropSlashes_eq, List.rdropWhile_concat_neg _ _ _ (by simp [hempty]),
        List.getLast?_concat, Option.some.injEq] at hpoint
      rw [hpoint] at hlast'
      cases hlast'
  · cases hpoint

end Parent

/-- If a directory has been made, there are directories on the way to it. -/
theorem directory_of_makeDirectories (hfs : fs.WellFormed)
    (hok : (fs.makeDirectories root).1 = .ok ()) {place : Location}
    (hplace : place ∈ fs.through root) :
    FileSystem.entry? (fs.makeDirectories root).2 place = some .directory := by
  obtain ⟨hgrows, hwell⟩ := FileSystem.makeDirectories_grows hfs root
  by_cases htext : root.text = ""
  · obtain rfl : root = ⟨""⟩ := by
      cases root
      exact congrArg Path.mk htext
    rw [eq_origin_of_mem_through (by rw [Path.split_empty]; decide) hplace]
    exact hgrows.entry_of_some (hfs.directory_origin _)
  · have hkind := FileSystem.kind?_of_makeDirectories htext hok
    rw [← hgrows.through_eq] at hplace
    exact (kind?_eq_directory_iff_through.mp hkind).2 place hplace

/-- A path that ends in a point is found or something is missing on its way. -/
theorem makeDirectory_of_point (hrefusal : refusal? root = none)
    (hclear : fs.Clear (fs.through root)) (hpoint : EndsInPoint root) :
    fs.kind? root = some .directory ∨ (fs.makeDirectory root).1 = .error .notFound := by
  rcases FileSystem.find_of_clear hrefusal fun place hmem =>
      hclear place (List.mem_append_left _ hmem) with ⟨entry, hfind⟩ | hfind
  · left
    cases entry with
    | directory => simp only [FileSystem.kind?, hfind, Entry.kind]
    | file bytes =>
      have hentry := (FileSystem.find_eq_ok_iff.mp hfind).2.2.2
      exact absurd hentry (hclear _ (fs.place_mem_through root) bytes)
  · right
    rw [FileSystem.makeDirectory, FileSystem.site_of_not_ends hrefusal hpoint.not_ends, hfind]
    rfl

/-- What a path lies in can be made, whatever the path ends in. -/
theorem makeDirectories_parent (hfs : fs.WellFormed) (hclean : root.Clean)
    (hclear : fs.Clear (fs.through root)) {a : Path.Anchor} {ps idles : List String} {last : String}
    (hsplit : root.split = (a, ps ++ last :: idles)) (hlast : Path.isIdle last = false)
    (hidles : idles.all Path.isIdle = true) :
    (fs.makeDirectories (Path.build a (Path.trimPieces ps))).1 = .ok () := by
  have hparent := Path.parent?_eq hsplit hlast hidles
  have hclear' : fs.Clear (fs.through (Path.build a (Path.trimPieces ps))) :=
    fun place hmem => hclear place (FileSystem.through_parent_subset hparent hmem)
  exact makeDirectories_of_not_point hfs (clean_parent hclean hsplit hlast) hclear'
    (not_endsInPoint_parent hsplit hlast)

/-- Once there is a directory for all that a path lies in, there is one for the path, if it leads to
one that was there or to one of those that have been made. -/
theorem kind?_of_makeDirectories_parent (hfs : fs.WellFormed) (hrefusal : refusal? root = none)
    {parent : Path} (hparent : root.parent? = some parent)
    (hmade : (fs.makeDirectories parent).1 = .ok ())
    (hplace : fs.entry? (fs.place root) = some .directory ∨ fs.place root ∈ fs.through parent) :
    (fs.makeDirectories parent).2.kind? root = some .directory := by
  have hgrows := (FileSystem.makeDirectories_grows hfs parent).1
  rcases root.eq_idle_or_eq_append with hidle | ⟨ps, last, idles, hsplit, hlast, hidles⟩
  · exact kind?_of_idle (FileSystem.makeDirectories_grows hfs parent).2 hrefusal hidle
  · refine kind?_eq_directory_iff_through.mpr ⟨hrefusal, fun place hmem => ?_⟩
    rw [Path.parent?_eq hsplit hlast hidles, Option.some.injEq] at hparent
    rw [hgrows.through_eq, FileSystem.mem_through hsplit hidles,
      ← FileSystem.mem_through_parent hsplit hlast, hparent] at hmem
    rcases hmem with hmem | rfl
    · exact directory_of_makeDirectories hfs hmade hmem
    · rcases hplace with hentry | hmem
      · exact hgrows.entry_of_some hentry
      · exact directory_of_makeDirectories hfs hmade hmem

/-- A root that can be made is made. -/
theorem makeDirectories_of_makeable (hfs : fs.WellFormed) (hrefusal : refusal? root = none)
    (hclear : fs.Clear (fs.through root)) (h : Makeable fs root) :
    (fs.makeDirectories root).1 = .ok () := by
  obtain ⟨hclean, htext⟩ := refusal?_eq_none_iff.mp hrefusal
  by_cases hpoint : EndsInPoint root
  · rcases root.eq_idle_or_eq_append with hidle | ⟨ps, last, idles, hsplit, hlast, hidles⟩
    · rw [FileSystem.makeDirectories_of_directory (kind?_of_idle hfs hrefusal hidle)]
    · have hparent := Path.parent?_eq hsplit hlast hidles
      have hmade := makeDirectories_parent hfs hclean hclear hsplit hlast hidles
      have hplace : fs.entry? (fs.place root) = some .directory ∨
          fs.place root ∈ fs.through (Path.build root.split.1 (Path.trimPieces ps)) := by
        refine (h.resolve_left (not_not_intro hpoint)).imp_right ?_
        rintro ⟨parent, hsome, hmem⟩
        obtain rfl := Option.some.inj (hparent.symm.trans hsome)
        exact hmem
      have hkind := kind?_of_makeDirectories_parent hfs hrefusal hparent hmade hplace
      rw [FileSystem.makeDirectories_eq] at hmade hkind
      rw [FileSystem.makeDirectories_eq, Path.ancestors_of_parent hparent]
      rcases fs.makeChain_cases htext (Path.build root.split.1 (Path.trimPieces ps)).ancestors with
        ⟨hfound, heq⟩ | ⟨-, ⟨-, heq⟩ | ⟨fault, hfault, -⟩⟩
      · have hthere := (makeDirectory_of_point hrefusal hclear hpoint).resolve_right hfound
        rw [heq, FileSystem.settle_of_directory hthere]
      · rw [heq, FileSystem.settle_of_directory hkind]
      · rw [hmade] at hfault
        cases hfault
  · exact makeDirectories_of_not_point hfs hclean hclear hpoint

/-- The directory of a store is there afterwards if its path is one that can be found and made. -/
theorem makeDirectories_eq_ok_iff (hfs : fs.WellFormed) (hroot : root.text ≠ "")
    (hclear : fs.Clear (fs.through root)) :
    (fs.makeDirectories root).1 = .ok () ↔ root.Clean ∧ Makeable fs root := by
  constructor
  · intro hok
    have hkind := FileSystem.kind?_of_makeDirectories hroot hok
    have hrefusal := (kind?_eq_directory_iff_through.mp hkind).1
    refine ⟨(refusal?_eq_none_iff.mp hrefusal).1, ?_⟩
    by_contra hnot
    rw [Makeable, not_or, not_not, not_or, not_exists] at hnot
    obtain ⟨hpoint, hplace, hparent⟩ := hnot
    exact makeDirectories_of_point hfs hrefusal hpoint hplace
      (fun parent hsome hmem => hparent parent ⟨hsome, hmem⟩) hok
  · rintro ⟨hclean, hmakeable⟩
    have hrefusal := refusal?_eq_none_iff.mpr ⟨hclean, hroot⟩
    exact makeDirectories_of_makeable hfs hrefusal hclear hmakeable

/-- Saving goes well if the directory is there afterwards and there is no directory in the place of
the file, be it there before or be it one of those that the path of the store leads through. -/
theorem respond_save_eq_saved_iff {store : DirectoryStore} {id : String} (hfs : fs.WellFormed)
    (hid : Store.isId id = true) (hroot : store.root.text ≠ "")
    (hclear : fs.Clear (fs.through store.root)) (content : String) :
    (store.respond fs (.save id content)).1 = .ok .saved ↔
      store.root.Clean ∧ Makeable fs store.root ∧
        fs.place store.root ++ [fileName id] ∉ fs.through store.root ∧
        fs.entry? (fs.place store.root ++ [fileName id]) ≠ some .directory := by
  have hgrows := (FileSystem.makeDirectories_grows hfs store.root).1
  constructor
  · intro hsaved
    rcases respond_save_cases hid content with ⟨path, fault, heq⟩ | ⟨grown, hmake, hentry, -, -⟩
    · rw [heq] at hsaved
      cases hsaved
    · have hok : (fs.makeDirectories store.root).1 = .ok () := by rw [hmake]
      obtain ⟨hclean, hmakeable⟩ := (makeDirectories_eq_ok_iff hfs hroot hclear).mp hok
      have hthrough {place : Location} (hmem : place ∈ fs.through store.root) :=
        directory_of_makeDirectories hfs hok hmem
      rw [hmake] at hgrows hthrough
      rw [hgrows.place_eq, place_pathFor store fs hid] at hentry
      exact ⟨hclean, hmakeable, fun hmem => hentry (hthrough hmem),
        fun hbefore => hentry (hgrows.entry_of_some hbefore)⟩
  · rintro ⟨hclean, hmakeable, hthrough, hentry⟩
    have hok := (makeDirectories_eq_ok_iff hfs hroot hclear).mpr ⟨hclean, hmakeable⟩
    have hway {place : Location} (hmem : place ∈ fs.through store.root) :=
      directory_of_makeDirectories hfs hok hmem
    rcases hmake : fs.makeDirectories store.root with ⟨fault | ⟨⟩, grown⟩
    · rw [hmake] at hok
      cases hok
    · rw [hmake] at hgrows hway
      -- the directory is there now, and the name in it is free or a file
      have hwrite : grown.writeBytes (store.pathFor id) content.toUTF8 =
          (.ok (), grown.put (grown.place (store.pathFor id)) (.file content.toUTF8)) := by
        refine FileSystem.writeBytes_of_way (refusal?_pathFor store hid hclean)
          (ends_pathFor store hid) (fun place hmem => ?_) ?_ _
        · rw [hgrows.wayTo_eq] at hmem
          exact hway (wayTo_pathFor_subset store fs hid hmem)
        · rw [hgrows.place_eq, place_pathFor store fs hid, hgrows.entry_of_not_mem hthrough]
          exact hentry
      rw [respond_save hid hmake hwrite]

end DirectoryStore

namespace Command

open DirectoryStore (fileName Makeable)
open FileSystem (bind_apply readText_apply)

variable {fs fs' : FileSystem} {root input : Path} {id text : String}

/-! ### Commands on a store -/

/-- What comes of a command on a file system, with what it leaves behind. -/
def perform (today : Naming.Day) (fs : FileSystem) (command : Command) : Outcome × FileSystem :=
  command.run (m := StateM FileSystem) today fs

theorem isId_storeId (input : Path) (text : String) : Store.isId (storeId input none text) = true :=
  Naming.isId_importId text _

/-- A page that has been read is stored as the store answers. -/
theorem perform_save (today : Naming.Day) (hread : fs.readBytes input = .ok text.toUTF8) :
    perform today fs (.store root (.save input none)) =
      match (DirectoryStore.mk root).respond fs (.save (storeId input none text) text) with
      | (.error e, fs') => (e.failed ("Failed to store " ++ input.text), fs')
      | (.ok _, fs') => (.success (Listing.line
          ("✓ Stored '" ++ storeId input none text ++ "' in " ++ root.text)), fs') := by
  rw [perform, run, runStore, runStoreSave, withPage, DirectoryStore.respond, DirectoryStore.answer]
  simp only [bind_apply, readText_apply, hread, Except.bind, Disk.textOfBytes_toUTF8]
  generalize storeId input none text = id
  rcases (DirectoryStore.mk root).save (m := StateM FileSystem) id text fs with
    ⟨e | ⟨⟩, after⟩ <;> rfl

/-- A page is printed as the store answers. -/
theorem perform_load (today : Naming.Day)
    (h : (DirectoryStore.mk root).respond fs (.load id) = (.ok (.content text), fs')) :
    perform today fs (.store root (.load id)) = (.success text, fs') := by
  rw [DirectoryStore.respond, DirectoryStore.answer, bind_apply] at h
  rw [perform, run, runStore, runStoreLoad, bind_apply]
  rcases hload : (DirectoryStore.mk root).load (m := StateM FileSystem) id fs with
    ⟨e | content, after⟩ <;> rw [hload] at h <;> cases h
  rfl

/-! ### Pages that are kept -/

/-- Whether a page is kept when it is stored under the identifier that its name gives. -/
structure Keeps (today : Naming.Day) (fs : FileSystem) (root input : Path) (text : String) :
    Prop where
  /-- The command ends well. -/
  stored : (perform today fs (.store root (.save input none))).1.exitCode = 0
  /-- When it is loaded then, the page is printed as it is. -/
  loaded : (perform today (perform today fs (.store root (.save input none))).2
    (.store root (.load (storeId input none text)))).1 = .success text
  /-- Every other text of the store is what it was. -/
  others : ∀ id, Store.isId id = true → id ≠ storeId input none text → ∀ bytes,
    FileSystem.entry? (perform today fs (.store root (.save input none))).2
        (fs.place root ++ [fileName id]) = some (.file bytes) ↔
      fs.entry? (fs.place root ++ [fileName id]) = some (.file bytes)

/-- The command succeeds exactly if the store has saved the page. -/
theorem exitCode_perform_save (today : Naming.Day) (hread : fs.readBytes input = .ok text.toUTF8) :
    (perform today fs (.store root (.save input none))).1.exitCode = 0 ↔
      ((DirectoryStore.mk root).respond fs (.save (storeId input none text) text)).1 =
        .ok .saved := by
  rw [perform_save today hread]
  rcases DirectoryStore.respond_save_cases (isId_storeId input text) text with
    ⟨path, fault, heq⟩ | ⟨grown, -, -, -, heq⟩ <;> rw [heq]
  · exact iff_of_false Nat.one_ne_zero nofun
  · exact iff_of_true rfl rfl

/-- A page is kept if it can be saved. -/
theorem keeps_of_saved (today : Naming.Day) (hread : fs.readBytes input = .ok text.toUTF8)
    (hsaved : ((DirectoryStore.mk root).respond fs (.save (storeId input none text) text)).1 =
      .ok .saved) : Keeps today fs root input text := by
  have hid := isId_storeId input text
  have hperform : perform today fs (.store root (.save input none)) = _ := perform_save today hread
  rcases hrespond : (DirectoryStore.mk root).respond fs (.save (storeId input none text) text) with
    ⟨reply, after⟩
  rw [hrespond] at hsaved hperform
  obtain rfl : reply = .ok .saved := hsaved
  have hload := DirectoryStore.respond_load_of_saved hid hrespond
  have hsaves := DirectoryStore.saves_of_respond hrespond
  refine ⟨?_, ?_, fun id hother hne bytes => ?_⟩
  · rw [hperform]
    rfl
  · rw [hperform]
    exact congrArg Prod.fst (perform_load today hload)
  · rw [hperform]
    -- nothing but directories has come into being, other than the file for the page
    by_cases hsame : after.entry? (fs.place root ++ [fileName id]) =
        fs.entry? (fs.place root ++ [fileName id])
    · rw [hsame]
    · rcases hsaves.changed hsame with ⟨ancestor, -, -, hnone, hmade⟩ | ⟨-, hplace⟩
      · rw [hnone, hmade]
        exact iff_of_false nofun nofun
      · rw [DirectoryStore.place_pathFor ⟨root⟩ fs hid, List.append_cancel_left_eq,
          List.singleton_inj] at hplace
        exact absurd (DirectoryStore.fileName_injective hother hid hplace) hne

/-- **When a page is kept.** Whatever a page is called, its name gives an identifier. Where no file
is in the way to the directory of the store, the page is kept if and only if the path of the store
can be that of a directory and there will be no directory in the place of the file. -/
theorem keeps_iff (today : Naming.Day) (hfs : fs.WellFormed)
    (hread : fs.readBytes input = .ok text.toUTF8) (hroot : root.text ≠ "")
    (hclear : fs.Clear (fs.through root)) :
    (∀ content stem, Store.isId (Naming.importId content stem) = true) ∧
      (Keeps today fs root input text ↔
        root.Clean ∧ Makeable fs root ∧
          fs.place root ++ [fileName (storeId input none text)] ∉ fs.through root ∧
          fs.entry? (fs.place root ++ [fileName (storeId input none text)]) ≠ some .directory) := by
  refine ⟨Naming.isId_importId, ?_⟩
  have hid := isId_storeId input text
  refine Iff.trans ?_ (DirectoryStore.respond_save_eq_saved_iff hfs hid hroot hclear text)
  constructor
  · intro hkeeps
    exact (exitCode_perform_save today hread).mp hkeeps.stored
  · intro hsaved
    exact keeps_of_saved today hread hsaved

/-! ### A page in a tree with nothing else -/

open Batch (onePage)

/-- A page is kept in a directory that is still to be made. -/
theorem keeps_docs : (onePage "home.txt" "# Home").WellFormed ∧
    (onePage "home.txt" "# Home").readBytes ⟨"home.txt"⟩ = .ok "# Home".toUTF8 ∧
    (onePage "home.txt" "# Home").Clear ((onePage "home.txt" "# Home").through ⟨"docs"⟩) ∧
    Keeps ⟨2024, 3, 7⟩ (onePage "home.txt" "# Home") ⟨"docs"⟩ ⟨"home.txt"⟩ "# Home" := by
  have hname : Path.IsName "home.txt" := by decide
  have hfs := Batch.wellFormed_onePage hname "# Home"
  have hread := Batch.readBytes_onePage hname "# Home"
  have hclear : (onePage "home.txt" "# Home").Clear
      ((onePage "home.txt" "# Home").through ⟨"docs"⟩) :=
    Batch.clear_onePage (by decide) "# Home"
  refine ⟨hfs, hread, hclear, (keeps_iff ⟨2024, 3, 7⟩ hfs hread (by decide) hclear).2.mpr ?_⟩
  have hplace : (onePage "home.txt" "# Home").place ⟨"docs"⟩ = ["docs"] := by decide
  have hmissing : FileSystem.entry? (onePage "home.txt" "# Home")
      ["docs", fileName (storeId ⟨"home.txt"⟩ none "# Home")] = none :=
    Batch.entry?_onePage_of_ne (List.cons_ne_nil _ _) (by simp) "# Home"
  refine ⟨by decide, .inl (by decide), ?_, ?_⟩
  · exact DirectoryStore.append_not_mem_through (by decide) (List.cons_ne_nil _ _)
  · rw [hplace, List.singleton_append, hmissing]
    nofun

/-- It is not kept if the path of this directory ends in a point. -/
theorem not_keeps_docs_point : (onePage "home.txt" "# Home").WellFormed ∧
    (onePage "home.txt" "# Home").readBytes ⟨"home.txt"⟩ = .ok "# Home".toUTF8 ∧
    (onePage "home.txt" "# Home").Clear ((onePage "home.txt" "# Home").through ⟨"docs/."⟩) ∧
    FileSystem.entry? (onePage "home.txt" "# Home")
      ((onePage "home.txt" "# Home").place ⟨"docs/."⟩) = none ∧
    ¬ Keeps ⟨2024, 3, 7⟩ (onePage "home.txt" "# Home") ⟨"docs/."⟩ ⟨"home.txt"⟩ "# Home" := by
  have hname : Path.IsName "home.txt" := by decide
  have hfs := Batch.wellFormed_onePage hname "# Home"
  have hread := Batch.readBytes_onePage hname "# Home"
  have hclear : (onePage "home.txt" "# Home").Clear
      ((onePage "home.txt" "# Home").through ⟨"docs/."⟩) :=
    Batch.clear_onePage (by decide) "# Home"
  have hplace : (onePage "home.txt" "# Home").place ⟨"docs/."⟩ = ["docs"] := by decide
  have hmissing : FileSystem.entry? (onePage "home.txt" "# Home") ["docs"] = none :=
    Batch.entry?_onePage_of_ne (List.cons_ne_nil _ _) (by decide) "# Home"
  refine ⟨hfs, hread, hclear, by rw [hplace, hmissing], fun hkeeps => ?_⟩
  have hsaved := (exitCode_perform_save ⟨2024, 3, 7⟩ hread).mp hkeeps.stored
  rw [DirectoryStore.respond_save_eq_saved_iff hfs (isId_storeId _ _) (by decide) hclear] at hsaved
  obtain ⟨-, hpoint | hthere | ⟨parent, hparent, hmem⟩, -, -⟩ := hsaved
  · exact hpoint (by decide)
  · rw [hplace, hmissing] at hthere
    cases hthere
  · have hempty : Path.parent? ⟨"docs/."⟩ = some ⟨""⟩ := by decide
    obtain rfl := Option.some.inj (hparent.symm.trans hempty)
    revert hmem
    decide

end Command

end Wireframe
