import Wireframe.Proofs.Batch.Mirror

/-!
# Pages in the order of the tree

A search for pages goes through the tree below a directory depth first, the entries of each
directory by name. So of two pages the one comes first that is under the lesser name in the
directory where the ways to them part (`Path.Before`): what is in a directory comes where the
directory itself would, between the entries beside it. This is not the order of the paths as they
are written, in which `b.txt` comes before `b/a.txt`. The search finds all pages below the
directory, each once, and nothing else (`Batch.exists_discovered`).
-/

namespace Wireframe

/-- Whether names lead to a place that a search depth first comes to before that of others, and
neither is inside the other: the first different name is less. -/
def Location.Before (ns ns' : Location) : Prop :=
  ∃ above n n' below below', ns = above ++ n :: below ∧ ns' = above ++ n' :: below' ∧ n < n'

/-- Whether a path comes before another one by the first component in which they differ, which is a
name in both. -/
def Path.Before (path path' : Path) : Prop :=
  ∃ above n n' below below', path.components = above ++ .name n :: below ∧
    path'.components = above ++ .name n' :: below' ∧ n < n'

/-- A path does not come before itself. -/
theorem Path.Before.ne {path path' : Path} (h : path.Before path') : path ≠ path' := by
  rintro rfl
  obtain ⟨above, n, n', below, below', hpath, hpath', hlt⟩ := h
  rw [hpath, List.append_cancel_left_eq, List.cons.injEq, Component.name.injEq] at hpath'
  rw [hpath'.1] at hlt
  exact String.lt_irrefl n' hlt

namespace FileSystem

variable {fs : FileSystem} {path : Path}

/-! ### The order of a tree -/

/-- A location that is less than another one leads to what that lies in, or comes before it. -/
theorem prefix_or_before {ns ns' : Location} (h : compare ns ns' = .lt) :
    ns <+: ns' ∨ ns.Before ns' := by
  induction ns generalizing ns' with
  | nil => exact .inl (List.nil_prefix)
  | cons n ns ih =>
    cases ns' with
    | nil =>
      rw [List.compare_eq_compareLex, List.compareLex_cons_nil] at h
      cases h
    | cons n' ns' =>
      rw [List.compare_eq_compareLex, List.compareLex_cons_cons, Ordering.then_eq_lt] at h
      rcases h with hlt | ⟨heq, hrest⟩
      · exact .inr ⟨[], n, n', ns, ns', rfl, rfl, compareOfLessAndEq_eq_lt.mp hlt⟩
      · obtain rfl := Std.compare_eq_iff_eq.mp heq
        rcases ih hrest with hprefix | ⟨above, m, m', below, below', rfl, rfl, hlt⟩
        · exact .inl ((List.prefix_cons_inj n).mpr hprefix)
        · exact .inr ⟨n :: above, m, m', below, below', rfl, rfl, hlt⟩

/-- Below one directory places are compared by what comes behind it. -/
theorem compare_append (base ns ns' : Location) :
    compare (base ++ ns) (base ++ ns') = compare ns ns' := by
  induction base with
  | nil => rfl
  | cons name base ih =>
    rw [List.compare_eq_compareLex] at ih ⊢
    have hname : compare name name = .eq := Std.compare_eq_iff_eq.mpr rfl
    rw [List.cons_append, List.cons_append, List.compareLex_cons_cons, ih, hname, Ordering.then]

/-- The places in a tree are listed in increasing order. -/
theorem pairwise_tree (fs : FileSystem) (base : Location) :
    (fs.tree base).Pairwise fun item item' => compare item.1 item'.1 = .lt := by
  rw [tree, List.pairwise_filterMap]
  refine fs.entries.ordered_keys_toList.imp fun hlt item hitem item' hitem' => ?_
  rwa [(tree_item.mp hitem).2.1, (tree_item.mp hitem').2.1, compare_append] at hlt

/-- The files below a directory are listed depth first. -/
theorem pairwise_filesBelow (hfs : fs.WellFormed) (h : fs.kind? path = some .directory) :
    (fs.filesBelow path).Pairwise Location.Before := by
  have hlt : (fs.filesBelow path).Pairwise fun ns ns' => compare ns ns' = .lt := by
    rw [filesBelow]
    split
    · rw [List.pairwise_filterMap]
      refine (fs.pairwise_tree _).imp fun hlt ns hns ns' hns' => ?_
      rwa [(file_item.mp hns).1, (file_item.mp hns').1] at hlt
    · exact .nil
  refine hlt.imp_of_mem fun {ns ns'} hns hns' hlt => (prefix_or_before hlt).resolve_left ?_
  -- nothing lies in a file
  rintro ⟨rest, rfl⟩
  obtain ⟨-, bytes, hfile⟩ := (mem_filesBelow h).mp hns
  obtain ⟨-, bytes', hfile'⟩ := (mem_filesBelow h).mp hns'
  have hrest : rest ≠ [] := by
    rintro rfl
    rw [List.append_nil, Std.compare_eq_iff_eq.mpr rfl] at hlt
    cases hlt
  rw [← List.append_assoc] at hfile'
  rw [hfs.directory_above hrest (by rw [hfile']; exact Option.some_ne_none _)] at hfile
  cases hfile

end FileSystem

namespace Batch

variable {fs : FileSystem} {root input : Path} {ns : List String}

/-! ### Pages below a directory -/

/-- Whether a path is that of a page below a directory: the names that lead to a file there, behind
the path of the directory, the last one with the extension of pages. -/
structure PageBelow (fs : FileSystem) (root input : Path) (ns : List String) : Prop where
  below : ns ≠ []
  file : ∃ bytes, fs.entry? (fs.place root ++ ns) = some (.file bytes)
  path : input = root.join ⟨Path.joined ns⟩
  extension : input.extension? = some pageExtension

/-- The extension of a path below the root is that of its last name. -/
theorem extension?_join (hne : ns ≠ []) (hnames : ∀ n ∈ ns, Path.IsName n) :
    (root.join ⟨Path.joined ns⟩).extension? = ns.getLast?.bind fun n => (Path.splitName n).2 := by
  obtain ⟨init, last, rfl⟩ := (List.eq_nil_or_concat ns).resolve_left hne
  rw [List.concat_eq_append] at hne hnames ⊢
  have hsplit := Path.split_join root hne hnames
  rw [← List.append_assoc] at hsplit
  rw [Path.extension?, Path.fileName?_of_split hsplit (hnames last (by simp)),
    List.getLast?_concat]

/-- The components of a path below the root are those of the root and its names. -/
theorem components_join (hne : ns ≠ []) (hnames : ∀ n ∈ ns, Path.IsName n) :
    (root.join ⟨Path.joined ns⟩).components = root.components ++ ns.map .name := by
  have hns : ns.filterMap Path.component? = ns.map .name := by
    rw [← List.filterMap_eq_map]
    exact List.filterMap_congr fun n hn => (hnames n hn).component?
  have hopen : root.openPieces.filterMap Path.component? =
      root.split.2.filterMap Path.component? := by
    rcases root.openPieces_cases with hcases | hcases <;> rw [hcases]
    rw [List.filterMap_append]
    exact (List.append_nil _).symm
  rw [Path.components, Path.split_join root hne hnames, Path.components, List.filterMap_append,
    hns, hopen, List.append_assoc]

namespace PageBelow

/-- The names on the way to a page are names of a directory. -/
theorem isName (h : PageBelow fs root input ns) (hfs : fs.WellFormed) :
    ∀ n ∈ ns, Path.IsName n := by
  obtain ⟨bytes, hfile⟩ := h.file
  exact fun n hn => hfs.isName (by rw [hfile]; exact Option.some_ne_none _) n
    (List.mem_append_right _ hn)

theorem components (h : PageBelow fs root input ns) (hfs : fs.WellFormed) :
    input.components = root.components ++ ns.map .name := by
  rw [h.path, components_join h.below (h.isName hfs)]

end PageBelow

/-- The names that a search finds are those that lead to pages. -/
theorem mem_filter_isPage_iff (hfs : fs.WellFormed) (h : fs.kind? root = some .directory) :
    ns ∈ (fs.filesBelow root).filter isPage ↔
      PageBelow fs root (root.join ⟨Path.joined ns⟩) ns := by
  rw [List.mem_filter, FileSystem.mem_filesBelow h]
  constructor
  · rintro ⟨⟨hne, bytes, hfile⟩, hpage⟩
    have hnames : ∀ n ∈ ns, Path.IsName n := fun n hn =>
      hfs.isName (by rw [hfile]; exact Option.some_ne_none _) n (List.mem_append_right _ hn)
    rw [isPage, ← extension?_join hne hnames, beq_iff_eq] at hpage
    exact ⟨hne, ⟨bytes, hfile⟩, rfl, hpage⟩
  · intro hpage
    refine ⟨⟨hpage.below, hpage.file⟩, ?_⟩
    rw [isPage, ← extension?_join hpage.below (hpage.isName hfs), hpage.extension, beq_iff_eq]

/-- Pages are ordered as their places below the root. -/
theorem before_join (hfs : fs.WellFormed) {ns' : List String}
    (h : PageBelow fs root (root.join ⟨Path.joined ns⟩) ns)
    (h' : PageBelow fs root (root.join ⟨Path.joined ns'⟩) ns') (hbefore : Location.Before ns ns') :
    (root.join ⟨Path.joined ns⟩).Before (root.join ⟨Path.joined ns'⟩) := by
  obtain ⟨above, n, n', below, below', hns, hns', hlt⟩ := hbefore
  refine ⟨root.components ++ above.map .name, n, n', below.map .name, below'.map .name, ?_, ?_, hlt⟩
  · rw [h.components hfs, hns]
    simp
  · rw [h'.components hfs, hns']
    simp

/-- **A search finds the pages below a directory**, all of them and each once, depth first, under
the path of the directory with the names that lead to them behind it. -/
theorem exists_discovered (hfs : fs.WellFormed) (h : fs.kind? root = some .directory) :
    ∃ inputs, pagesAt fs root = .ok inputs ∧
      (∀ input, input ∈ inputs ↔ ∃ ns, PageBelow fs root input ns) ∧
      inputs.Nodup ∧ inputs.Pairwise Path.Before ∧
      ∀ input ns, PageBelow fs root input ns →
        input.components = root.components ++ ns.map .name ∧
        ∃ bytes, fs.readBytes input = .ok bytes := by
  -- the pages keep the order in which the files below the directory are listed
  have hsorted : (((fs.filesBelow root).filter isPage).map fun ns =>
      root.join ⟨Path.joined ns⟩).Pairwise Path.Before := by
    rw [List.pairwise_map]
    refine ((FileSystem.pairwise_filesBelow hfs h).filter _).imp_of_mem
      fun hns hns' hbefore => ?_
    exact before_join hfs ((mem_filter_isPage_iff hfs h).mp hns)
      ((mem_filter_isPage_iff hfs h).mp hns') hbefore
  refine ⟨_, pagesAt_of_directory h, fun input => ?_, hsorted.imp Path.Before.ne, hsorted,
    fun input ns hpage => ⟨hpage.components hfs, ?_⟩⟩
  · rw [List.mem_map]
    constructor
    · rintro ⟨ns, hns, rfl⟩
      exact ⟨ns, (mem_filter_isPage_iff hfs h).mp hns⟩
    · rintro ⟨ns, hpage⟩
      obtain rfl := hpage.path
      exact ⟨ns, (mem_filter_isPage_iff hfs h).mpr hpage, rfl⟩
  · obtain ⟨bytes, hfile⟩ := hpage.file
    rw [hpage.path]
    exact ⟨bytes, FileSystem.readBytes_join hfs h hpage.below (hpage.isName hfs) hfile⟩

/-- What is in the directory `b` comes before the page `b.txt` beside it. -/
theorem exists_discovered_nestedPages : nestedPages.WellFormed ∧
    nestedPages.kind? ⟨"."⟩ = some .directory ∧
    ∃ inputs, pagesAt nestedPages ⟨"."⟩ = .ok inputs ∧
      (⟨"./b/a.txt"⟩ ∈ inputs ∧ ⟨"./b.txt"⟩ ∈ inputs ∧ Path.Before ⟨"./b/a.txt"⟩ ⟨"./b.txt"⟩) ∧
      (∀ input, input ∈ inputs ↔ ∃ ns, PageBelow nestedPages ⟨"."⟩ input ns) ∧
      inputs.Nodup ∧ inputs.Pairwise Path.Before := by
  refine ⟨wellFormed_nestedPages, kind?_nestedPages, ?_⟩
  obtain ⟨inputs, hpages, hmem, hnodup, hsorted, -⟩ :=
    exists_discovered wellFormed_nestedPages kind?_nestedPages
  have hinner : nestedPages.entry? ["b", "a.txt"] = some (.file "# B".toUTF8) := by
    rw [entry?_nestedPages, if_pos rfl]
  have houter : nestedPages.entry? ["b.txt"] = some (.file "# B".toUTF8) := by
    rw [entry?_nestedPages, if_neg (by decide), if_neg (by decide), entry?_twoPages, if_pos rfl]
  refine ⟨inputs, hpages, ⟨?_, ?_, ?_⟩, hmem, hnodup, hsorted⟩
  · exact mem_pagesAt_nestedPages hpages (List.cons_ne_nil _ _) (by decide) hinner
  · exact mem_pagesAt_nestedPages hpages (List.cons_ne_nil _ _) (by decide) houter
  · exact ⟨[.here], "b", "b.txt", [.name "a.txt"], [], by decide, by decide, by decide⟩

end Batch

end Wireframe
