import Wireframe.Proofs.FileSystem.Files

/-!
# What is in a directory

The names that a directory lists are those of the places right in it, each once
(`FileSystem.names_of_directory`), and the files listed below it are all files at places below it
(`FileSystem.mem_filesBelow`).
-/

namespace Wireframe.FileSystem

variable {fs : FileSystem} {base location : Location} {path : Path}

theorem below?_eq_some_iff {rest : Location} :
    below? base location = some rest ↔ location = base ++ rest := by
  rw [below?]
  constructor
  · intro h
    split at h
    · rename_i hprefix
      obtain ⟨rest', rfl⟩ := List.isPrefixOf_iff_prefix.mp hprefix
      rw [List.drop_left, Option.some.injEq] at h
      rw [h]
    · cases h
  · rintro rfl
    rw [if_pos (List.isPrefixOf_iff_prefix.mpr (List.prefix_append ..)), List.drop_left]

/-- How a place is listed in the tree below another one. -/
theorem tree_item {β : Type} {entry : β} {item : Location × β} :
    (match below? base location with
      | some (name :: rest) => some (name :: rest, entry)
      | _ => none) = some item ↔ item.1 ≠ [] ∧ location = base ++ item.1 ∧ entry = item.2 := by
  obtain ⟨rest, entry'⟩ := item
  constructor
  · intro h
    match hrest : below? base location with
    | none | some [] => simp [hrest] at h
    | some (name :: rest') =>
      simp only [hrest, Option.some.injEq, Prod.mk.injEq] at h
      obtain ⟨rfl, rfl⟩ := h
      exact ⟨List.cons_ne_nil _ _, below?_eq_some_iff.mp hrest, rfl⟩
  · rintro ⟨hne, rfl, rfl⟩
    obtain ⟨name, rest, rfl⟩ := List.exists_cons_of_ne_nil hne
    simp only [below?_eq_some_iff.mpr rfl]

/-- The tree below a place holds what is at the places below it. -/
theorem mem_tree {item : Location × Entry} :
    item ∈ fs.tree base ↔ item.1 ≠ [] ∧ fs.entry? (base ++ item.1) = some item.2 := by
  have hentry (hne : item.1 ≠ []) : fs.entry? (base ++ item.1) = some item.2 ↔
      (base ++ item.1, item.2) ∈ fs.entries.toList := by
    rw [Std.ExtTreeMap.mem_toList_iff_getElem?_eq_some, entry?, if_neg (by simp [hne])]
  rw [tree, List.mem_filterMap]
  constructor
  · rintro ⟨⟨place, entry⟩, hmem, hitem⟩
    obtain ⟨hne, rfl, rfl⟩ := tree_item.mp hitem
    exact ⟨hne, (hentry hne).mpr hmem⟩
  · rintro ⟨hne, hsome⟩
    exact ⟨_, (hentry hne).mp hsome, tree_item.mpr ⟨hne, rfl, rfl⟩⟩

/-- Each place is listed once in a tree. -/
theorem nodup_tree (fs : FileSystem) (base : Location) :
    (fs.tree base).Pairwise fun item item' => item.1 ≠ item'.1 := by
  rw [tree, List.pairwise_filterMap]
  refine fs.entries.distinct_keys_toList.imp fun hne item hitem item' hitem' heq => hne ?_
  rw [(tree_item.mp hitem).2.1, (tree_item.mp hitem').2.1, heq, Std.compare_eq_iff_eq]

/-! ### Names in a directory -/

theorem name_item {item : Location × Entry} {name : String} :
    (match item.1 with
      | [name] => some name
      | _ => none) = some name ↔ item.1 = [name] := by
  match hitem : item.1 with
  | [] | [_] | _ :: _ :: _ => simp

/-- A directory lists the names of the places right in it, each once. -/
theorem names_of_directory (h : fs.kind? path = some .directory) :
    ∃ ns, fs.names path = .ok ns ∧ ns.Nodup ∧
      ∀ name, name ∈ ns ↔ fs.entry? (fs.place path ++ [name]) ≠ none := by
  obtain ⟨hrefusal, hway, hplace⟩ := kind?_eq_directory_iff.mp h
  rw [names, find_eq_ok_iff.mpr ⟨hrefusal, hway, rfl, hplace⟩]
  refine ⟨_, rfl, ?_, fun name => ?_⟩
  · rw [List.Nodup, List.pairwise_filterMap]
    refine (fs.nodup_tree _).imp fun hne name hname name' hname' heq => hne ?_
    rw [name_item.mp hname, name_item.mp hname', heq]
  · rw [List.mem_filterMap]
    constructor
    · rintro ⟨item, hitem, hname⟩
      have hentry := (mem_tree.mp hitem).2
      rw [name_item.mp hname] at hentry
      rw [hentry]
      exact Option.some_ne_none _
    · intro hne
      obtain ⟨entry, hentry⟩ := Option.ne_none_iff_exists'.mp hne
      exact ⟨([name], entry), mem_tree.mpr ⟨List.cons_ne_nil _ _, hentry⟩, rfl⟩

/-! ### Files below a directory -/

theorem file_item {item : Location × Entry} :
    (match item.2 with
      | .file _ => some item.1
      | .directory => none) = some location ↔
        item.1 = location ∧ ∃ bytes, item.2 = .file bytes := by
  match hitem : item.2 with
  | .file _ | .directory => simp

/-- All files below a directory are listed, and nothing else. -/
theorem mem_filesBelow (h : fs.kind? path = some .directory) :
    location ∈ fs.filesBelow path ↔ location ≠ [] ∧
      ∃ bytes, fs.entry? (fs.place path ++ location) = some (.file bytes) := by
  obtain ⟨hrefusal, hway, hplace⟩ := kind?_eq_directory_iff.mp h
  rw [filesBelow, find_eq_ok_iff.mpr ⟨hrefusal, hway, rfl, hplace⟩]
  simp only [List.mem_filterMap]
  constructor
  · rintro ⟨item, hitem, hfile⟩
    obtain ⟨rfl, bytes, hbytes⟩ := file_item.mp hfile
    obtain ⟨hne, hentry⟩ := mem_tree.mp hitem
    exact ⟨hne, bytes, hbytes ▸ hentry⟩
  · rintro ⟨hne, bytes, hentry⟩
    exact ⟨(location, .file bytes), mem_tree.mpr ⟨hne, hentry⟩, rfl⟩

/-- A file below a directory is read by the names that lead to it, appended to the path of the
directory. -/
theorem readBytes_join (hfs : fs.WellFormed) (h : fs.kind? path = some .directory)
    {ns : List String} (hne : ns ≠ []) (hnames : ∀ n ∈ ns, Path.IsName n) {bytes : ByteArray}
    (hentry : fs.entry? (fs.place path ++ ns) = some (.file bytes)) :
    fs.readBytes (path.join ⟨Path.joined ns⟩) = .ok bytes := by
  obtain ⟨hrefusal, hthrough⟩ := kind?_eq_directory_iff_through.mp h
  have hsplit := Path.split_join path hne hnames
  have horigin : fs.origin (path.join ⟨Path.joined ns⟩) = fs.origin path :=
    origin_of_split (by rw [hsplit])
  rw [readBytes_eq_ok_iff, wayTo, place, horigin, hsplit, reach_append, way_append,
    reach_openPieces, reach_names hnames]
  refine ⟨refusal?_eq_none_iff.mpr ⟨?_, ?_⟩, fun p hp => ?_, hentry⟩
  · rw [Path.clean_iff, hsplit, List.forall_mem_append]
    have hclean := Path.clean_iff.mp (refusal?_eq_none_iff.mp hrefusal).1
    refine ⟨fun p hp => hclean p ?_, fun p hp => (hnames p hp).no_null⟩
    rcases path.openPieces_cases with hcases | hcases <;> rw [hcases]
    · exact hp
    · exact List.mem_append_left _ hp
  · obtain ⟨init, last, hlast⟩ := (List.eq_nil_or_concat ns).resolve_left hne
    rw [List.concat_eq_append] at hlast
    have hsplit' : (path.join ⟨Path.joined ns⟩).split =
        (path.split.1, path.openPieces ++ init ++ last :: []) := by
      rw [hsplit, hlast, List.append_assoc]
    exact Path.text_ne_of_split hsplit' (hnames last (by simp [hlast])).not_idle
  · rcases List.mem_append.mp hp with hp | hp
    · refine hthrough p (List.mem_append_left _ ?_)
      rw [wayTo]
      rcases path.openPieces_cases with hcases | hcases <;> rw [hcases]
      · exact hp
      · rw [way_append]
        exact List.mem_append_left _ hp
    · -- a place on the way down to a file is a directory, since the tree has no gaps
      obtain ⟨above, below, rfl, hbelow, rfl⟩ := (mem_way_names hnames).mp hp
      rw [← List.append_assoc] at hentry
      exact hfs.directory_above hbelow (by rw [hentry]; exact Option.some_ne_none _)

theorem nodup_filesBelow (fs : FileSystem) (path : Path) : (fs.filesBelow path).Nodup := by
  rw [filesBelow]
  split
  · rw [List.Nodup, List.pairwise_filterMap]
    refine (fs.nodup_tree _).imp fun hne place hplace place' hplace' heq => hne ?_
    rw [(file_item.mp hplace).1, (file_item.mp hplace').1, heq]
  · exact List.nodup_nil

end Wireframe.FileSystem
