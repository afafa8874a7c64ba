import Mathlib.Data.List.TakeWhile
import Wireframe.Proofs.Path.Pieces

/-!
# Names in paths

A name is what a place in a directory can be called: not empty, neither `.` nor `..`, and without
slashes and null characters. Names can be appended to any path (`Path.split_join`), and then the
path that was there is taken off again (`Path.relativeTo?_join`).

A name with an extension is a stem, a point and the extension, and there is only one way to see it
so (`Path.splitName_eq_iff`). A new extension replaces the last piece of a path and no other
(`Path.split_withExtension`).
-/

namespace Wireframe.Path

/-- A name that a place in a directory can have. -/
structure IsName (name : String) : Prop where
  not_idle : isIdle name = false
  not_up : name ≠ ".."
  no_slash : '/' ∉ name.toList
  no_null : '\x00' ∉ name.toList

theorem isName_iff {name : String} : IsName name ↔
    isIdle name = false ∧ name ≠ ".." ∧ '/' ∉ name.toList ∧ '\x00' ∉ name.toList :=
  ⟨fun h => ⟨h.1, h.2, h.3, h.4⟩, fun h => ⟨h.1, h.2.1, h.2.2.1, h.2.2.2⟩⟩

instance (name : String) : Decidable (IsName name) := decidable_of_iff' _ isName_iff

theorem IsName.component? {name : String} (h : IsName name) :
    component? name = some (.name name) := by
  simp [Path.component?, h.not_idle, h.not_up]

/-! ### Stems and extensions -/

/-- What stands in front of the first point is found, also if there is no point. -/
theorem takeWhile_append_of_not_mem {after rest : List Char} (hafter : '.' ∉ after)
    (hrest : rest = [] ∨ ∃ stem, rest = '.' :: stem) :
    (after ++ rest).takeWhile (· != '.') = after := by
  rw [List.takeWhile_append_of_pos]
  · rcases hrest with rfl | ⟨stem, rfl⟩ <;> simp
  · exact fun c hc => bne_iff_ne.mpr fun heq => hafter (heq ▸ hc)

/-- A name with a point that is not its first character is split at the last one. -/
theorem splitName_of_point {name : String} {after before : List Char} {c : Char}
    (h : name.toList.reverse = after ++ '.' :: c :: before) (hafter : '.' ∉ after) :
    splitName name = (String.ofList (c :: before).reverse, some (String.ofList after.reverse)) := by
  unfold splitName
  extract_lets reversed found
  have hreversed : reversed = after ++ '.' :: c :: before := h
  have hfound : found = after := by
    rw [← takeWhile_append_of_not_mem hafter (.inr ⟨_, rfl⟩), ← hreversed]
  rw [hfound, hreversed, List.drop_left]

/-- Any other name is not split. -/
theorem splitName_of_no_point {name : String} {after rest : List Char}
    (h : name.toList.reverse = after ++ rest) (hafter : '.' ∉ after)
    (hrest : rest = [] ∨ rest = ['.']) : splitName name = (name, none) := by
  unfold splitName
  extract_lets reversed found
  have hreversed : reversed = after ++ rest := h
  have hfound : found = after := by
    rw [← takeWhile_append_of_not_mem hafter (hrest.imp_right fun heq => ⟨[], heq⟩), ← hreversed]
  rw [hfound, hreversed, List.drop_left]
  rcases hrest with rfl | rfl <;> rfl

/-- The characters of a name up to its last point, from the end. -/
theorem exists_reverse_eq (name : String) : ∃ after rest, name.toList.reverse = after ++ rest ∧
    '.' ∉ after ∧ (rest = [] ∨ ∃ stem, rest = '.' :: stem) := by
  refine ⟨_, _, (List.takeWhile_append_dropWhile (p := (· != '.'))).symm, ?_, ?_⟩
  · intro hmem
    have := List.mem_takeWhile_imp hmem
    simp at this
  · cases hdrop : name.toList.reverse.dropWhile (· != '.') with
    | nil => exact .inl rfl
    | cons c stem =>
      have hhead := List.head?_dropWhile_not (· != '.') name.toList.reverse
      rw [hdrop] at hhead
      exact .inr ⟨stem, by simpa using hhead⟩

/-- A name is split into a stem and an extension, or it is not split. -/
theorem splitName_cases (name : String) :
    splitName name = (name, none) ∨ ∃ stem extension, name = stem ++ "." ++ extension ∧
      stem ≠ "" ∧ '.' ∉ extension.toList ∧ splitName name = (stem, some extension) := by
  obtain ⟨after, rest, hname, hafter, hrest⟩ := exists_reverse_eq name
  rcases hrest with rfl | ⟨_ | ⟨c, before⟩, rfl⟩
  · exact .inl (splitName_of_no_point hname hafter (.inl rfl))
  · exact .inl (splitName_of_no_point hname hafter (.inr rfl))
  · refine .inr ⟨_, _, ?_, ?_, ?_, splitName_of_point hname hafter⟩
    · rw [← String.toList_inj, ← List.reverse_inj, hname]
      simp [String.toList_append]
    · simp [← String.toList_inj]
    · simpa using hafter

/-- A name with an extension splits at the last point, which is the one in front of the extension.
-/
theorem splitName_append {stem extension : String} (hstem : stem ≠ "")
    (hextension : '.' ∉ extension.toList) :
    splitName (stem ++ "." ++ extension) = (stem, some extension) := by
  obtain ⟨c, before, hbefore⟩ : ∃ c before, stem.toList.reverse = c :: before :=
    List.exists_cons_of_ne_nil (by simpa using hstem)
  have hreverse : (stem ++ "." ++ extension).toList.reverse =
      extension.toList.reverse ++ '.' :: c :: before := by
    simp [String.toList_append, hbefore]
  rw [splitName_of_point hreverse (by simpa using hextension), ← hbefore]
  simp

/-- A name is its stem, a point and its extension. -/
theorem splitName_eq_iff {name stem extension : String} :
    splitName name = (stem, some extension) ↔
      name = stem ++ "." ++ extension ∧ stem ≠ "" ∧ '.' ∉ extension.toList := by
  constructor
  · intro h
    rcases splitName_cases name with hnone | ⟨stem', extension', hname, hstem, hextension, hsome⟩
    · simp [hnone] at h
    · simp only [hsome, Prod.mk.injEq, Option.some.injEq] at h
      obtain ⟨rfl, rfl⟩ := h
      exact ⟨hname, hstem, hextension⟩
  · rintro ⟨rfl, hstem, hextension⟩
    exact splitName_append hstem hextension

/-- The stem of a name is made of the characters of the name, and not empty unless the name is. -/
theorem stem_splitName {name : String} (h : name ≠ "") :
    (splitName name).1 ≠ "" ∧ (splitName name).1.toList ⊆ name.toList := by
  rcases splitName_cases name with hnone | ⟨stem, extension, hname, hstem, -, hsome⟩
  · rw [hnone]
    exact ⟨h, List.Subset.refl _⟩
  · rw [hsome, hname]
    exact ⟨hstem, by simp [String.toList_append]⟩

/-- The name with another extension. -/
def rename (name extension : String) : String := (splitName name).1 ++ "." ++ extension

/-- A name with another extension is a name. -/
theorem IsName.rename {name extension : String} (h : IsName name) (hextension : IsName extension) :
    IsName (rename name extension) := by
  have hne : name ≠ "" := by
    rintro rfl
    exact absurd h.not_idle (by decide)
  obtain ⟨hstem, hsubset⟩ := stem_splitName hne
  -- the stem and the extension have a character each, so the name is longer than `.` and `..`
  have hlength : 2 < (Path.rename name extension).length := by
    have hname : 0 < (splitName name).1.length := by
      rwa [Nat.pos_iff_ne_zero, ne_eq, String.length_eq_zero_iff]
    have hext : 0 < extension.length := by
      rw [Nat.pos_iff_ne_zero, ne_eq, String.length_eq_zero_iff]
      rintro rfl
      exact absurd hextension.not_idle (by decide)
    have hpoint : ".".length = 1 := by decide
    rw [Path.rename, String.length_append, String.length_append]
    omega
  have hne_of_length {short : String} (hshort : short.length ≤ 2) :
      Path.rename name extension ≠ short := by
    rintro heq
    rw [heq] at hlength
    omega
  have hnot_mem {c : Char} (hc : c ∉ name.toList) (hext : c ∉ extension.toList) (hpoint : c ≠ '.') :
      c ∉ (Path.rename name extension).toList := by
    simp only [Path.rename, String.toList_append, List.mem_append, not_or]
    exact ⟨⟨fun hmem => hc (hsubset hmem), by simpa using hpoint⟩, hext⟩
  exact {
    not_idle := by
      rw [isIdle, Bool.or_eq_false_iff, beq_eq_false_iff_ne, beq_eq_false_iff_ne]
      exact ⟨hne_of_length (by decide), hne_of_length (by decide)⟩
    not_up := hne_of_length (by decide)
    no_slash := hnot_mem h.no_slash hextension.no_slash (by decide)
    no_null := hnot_mem h.no_null hextension.no_null (by decide) }

/-! ### Paths that end in a name -/

section Ending

variable {path : Path} {a : Anchor} {ps : List String} {name : String}

theorem fileName?_of_split (h : path.split = (a, ps ++ [name])) (hname : IsName name) :
    path.fileName? = some name := by
  rw [fileName?, getLast?_components h hname.not_idle rfl, hname.component?]

/-- A new extension replaces the last piece. -/
theorem split_withExtension {extension : String} (h : path.split = (a, ps ++ [name]))
    (hname : IsName name) (hextension : IsName extension) :
    (path.withExtension extension).split = (a, ps ++ [rename name extension]) := by
  have hrename := hname.rename hextension
  have hallows := allows_split (text_ne_of_split h hname.not_idle)
  rw [h] at hallows
  rw [withExtension, stem?, fileName?_of_split h hname, Option.map_some, h,
    trimPieces_concat hname.not_idle, List.dropLast_concat]
  refine split_build ?_ ?_
  · by_cases hnil : ps = []
    · rw [hnil]
      exact Anchor.allows_cons hrename.not_idle []
    · exact (hallows.of_append hnil).append _
  · intro p hp
    rcases List.mem_append.mp hp with hp | hp
    · have hmem : p ∈ path.split.2 := by
        rw [h]
        exact List.mem_append_left _ hp
      exact slash_not_mem hmem
    · rw [List.mem_singleton.mp hp]
      exact hrename.no_slash

end Ending

/-! ### Names below a path -/

/-- The pieces of a path that names can follow: without the empty piece behind a slash at the
end. -/
def openPieces (path : Path) : List String :=
  if path.text = "" ∨ path.text.toList.getLast? = some '/' then path.split.2.dropLast
  else path.split.2

theorem openPieces_empty : openPieces ⟨""⟩ = [] := by decide

/-- Behind a slash at the end stands an empty piece. -/
theorem split_of_slash {base : Path} {text : String} (h : base.text = text ++ "/") :
    base.split.2 = base.openPieces ++ [""] ∧
      pieces ⟨text⟩ = base.split.1.pieces ++ base.openPieces := by
  have htoList : base.text.toList = text.toList ++ ['/'] := by simp [h, String.toList_append]
  have hbase : base.split.1.pieces ++ base.split.2 = pieces ⟨text⟩ ++ [""] := by
    rw [← pieces_split, pieces, htoList, Text.splitOn_append_sep, List.map_append]
    rfl
  have hopen : base.openPieces = base.split.2.dropLast := by
    rw [openPieces, if_pos (.inr (by rw [htoList, List.getLast?_concat]))]
  have hallows : base.split.1.Allows base.split.2 := by
    refine allows_split fun hempty => ?_
    rw [hempty] at htoList
    simp at htoList
  -- the empty piece is the last one, and it cannot be the anchor itself
  rcases List.eq_nil_or_concat base.split.2 with hnil | ⟨init, last, hinit⟩
  · rw [hnil, List.append_nil] at hbase
    have hlast := congrArg List.getLast? hbase
    rw [List.getLast?_concat] at hlast
    cases ha : base.split.1 with
    | root => exact absurd hnil (by rwa [ha] at hallows)
    | here => exact absurd hlast (by rw [ha]; decide)
    | none => exact absurd hlast (by rw [ha]; decide)
  · rw [List.concat_eq_append] at hinit
    rw [hinit, ← List.append_assoc] at hbase
    obtain ⟨hpieces, rfl⟩ := List.append_singleton_inj.mp hbase
    rw [hopen, hinit, List.dropLast_concat]
    exact ⟨rfl, hpieces.symm⟩

/-- A text whose last character is a slash is some text with a slash behind it. -/
theorem exists_eq_append_slash {base : Path} (h : base.text.toList.getLast? = some '/') :
    ∃ text, base.text = text ++ "/" := by
  obtain ⟨cs, hcs⟩ := List.getLast?_eq_some_iff.mp h
  exact ⟨String.ofList cs, by simp [← String.toList_inj, String.toList_append, hcs]⟩

/-- An open path has the pieces of the path, but for an empty one at the end. -/
theorem openPieces_cases (base : Path) :
    base.split.2 = base.openPieces ∨ base.split.2 = base.openPieces ++ [""] := by
  by_cases hempty : base.text = ""
  · obtain rfl : base = ⟨""⟩ := by cases base; simp_all
    exact .inr (by decide)
  · by_cases hslash : base.text.toList.getLast? = some '/'
    · obtain ⟨text, htext⟩ := exists_eq_append_slash hslash
      exact .inr (split_of_slash htext).1
    · exact .inl (by rw [openPieces, if_neg (not_or.mpr ⟨hempty, hslash⟩)])

section Below

variable {ns : List String}

/-- Names that are joined are the pieces of a path without an anchor. -/
theorem split_joined (hne : ns ≠ []) (h : ∀ n ∈ ns, IsName n) :
    split ⟨joined ns⟩ = (.none, ns) := by
  obtain ⟨first, rest, rfl⟩ := List.exists_cons_of_ne_nil hne
  exact split_eq (Anchor.allows_cons (h first (List.mem_cons_self ..)).not_idle rest)
    (pieces_joined hne fun n hn => (h n hn).no_slash)

/-- Names behind a slash are further pieces. -/
theorem pieces_append_slash (text : String) (hne : ns ≠ []) (h : ∀ n ∈ ns, IsName n) :
    pieces ⟨text ++ "/" ++ joined ns⟩ = pieces ⟨text⟩ ++ ns := by
  have htoList : (text ++ "/" ++ joined ns).toList = text.toList ++ '/' :: (joined ns).toList := by
    simp [String.toList_append]
  rw [pieces, htoList, Text.splitOn_append_sep, List.map_append]
  exact congrArg _ (pieces_joined hne fun n hn => (h n hn).no_slash)

/-- Names may follow the pieces of an open path. -/
theorem allows_openPieces (base : Path) (hne : ns ≠ []) (h : ∀ n ∈ ns, IsName n) :
    base.split.1.Allows (base.openPieces ++ ns) := by
  by_cases hnil : base.openPieces = []
  · obtain ⟨first, rest, rfl⟩ := List.exists_cons_of_ne_nil hne
    rw [hnil]
    exact Anchor.allows_cons (h first (List.mem_cons_self ..)).not_idle rest
  · have hempty : base.text ≠ "" := by
      rintro hempty
      obtain rfl : base = ⟨""⟩ := by cases base; simp_all
      exact hnil openPieces_empty
    have hallows := allows_split hempty
    rcases base.openPieces_cases with hcases | hcases
    · exact (hcases ▸ hallows).append ns
    · exact ((hcases ▸ hallows).of_append hnil).append ns

/-- Names appended to a path stand behind the pieces that are open to them. -/
theorem split_join (base : Path) (hne : ns ≠ []) (h : ∀ n ∈ ns, IsName n) :
    (base.join ⟨joined ns⟩).split = (base.split.1, base.openPieces ++ ns) := by
  have hrelative : isAbsolute ⟨joined ns⟩ = false := by simp [isAbsolute, split_joined hne h]
  have hallows := base.allows_openPieces hne h
  by_cases hempty : base.text = ""
  · obtain rfl : base = ⟨""⟩ := by cases base; simp_all
    rw [split_empty, openPieces_empty, List.nil_append, ← split_joined hne h]
    simp [join, hrelative]
  · by_cases hslash : base.text.toList.getLast? = some '/'
    · obtain ⟨text, htext⟩ := exists_eq_append_slash hslash
      have hjoin : base.join ⟨joined ns⟩ = ⟨base.text ++ joined ns⟩ := by
        simp [join, hrelative, hempty, hslash]
      refine split_eq hallows ?_
      rw [hjoin, htext, pieces_append_slash _ hne h, (split_of_slash htext).2, List.append_assoc]
    · have hjoin : base.join ⟨joined ns⟩ = ⟨base.text ++ "/" ++ joined ns⟩ := by
        simp [join, hrelative, hempty, hslash]
      have hopen : base.openPieces = base.split.2 := by
        rw [openPieces, if_neg (not_or.mpr ⟨hempty, hslash⟩)]
      refine split_eq hallows ?_
      rw [hjoin, pieces_append_slash _ hne h, hopen, pieces_split base, List.append_assoc]

end Below

/-! ### Relative paths -/

/-- There are as many components as pieces that say something. -/
theorem length_filterMap_component? (ps : List String) :
    (ps.filterMap component?).length = ps.countP (!isIdle ·) := by
  induction ps with
  | nil => rfl
  | cons p ps ih =>
    cases hp : isIdle p with
    | true => simp [component?_eq_none_iff.mpr hp, hp, ih]
    | false => rcases component?_of_not_idle hp with hc | hc <;> simp [hc, hp, ih]

/-- Leaving out as many pieces as say something leaves idle ones in front of the rest. -/
theorem exists_dropPieces (qs rest : List String) : ∃ idles, idles.all isIdle = true ∧
    dropPieces (qs.countP (!isIdle ·)) (qs ++ rest) = idles ++ rest := by
  induction qs with
  | nil => exact ⟨[], rfl, by simp [dropPieces]⟩
  | cons q qs ih =>
    obtain ⟨idles, hidles, hdrop⟩ := ih
    cases hq : isIdle q with
    | false => exact ⟨idles, hidles, by simpa [hq, dropPieces] using hdrop⟩
    | true =>
      rw [List.countP_cons_of_neg (by simp [hq])]
      cases hcount : qs.countP (!isIdle ·) with
      | zero =>
        have hall : qs.all isIdle = true := by
          rw [List.countP_eq_zero] at hcount
          simpa using hcount
        exact ⟨q :: qs, by simp [hq, hall], by simp [dropPieces]⟩
      | succ count =>
        rw [hcount] at hdrop
        exact ⟨idles, hidles, by simpa [dropPieces, hq] using hdrop⟩

/-- What follows all pieces of a base is what a path is relative to the base. -/
theorem relativeTo?_of_split {path base : Path} {qs rest : List String} (hbase : base.text ≠ "")
    (h : path.split = (base.split.1, qs ++ rest))
    (hqs : qs.filterMap component? = base.split.2.filterMap component?) :
    path.relativeTo? base = some ⟨joined (trimPieces (rest.dropWhile isIdle))⟩ := by
  have hprefix : base.components.isPrefixOf path.components = true := by
    rw [List.isPrefixOf_iff_prefix, components_of_split h, List.filterMap_append, hqs,
      ← List.append_assoc]
    exact List.prefix_append _ _
  have hlength : base.components.length =
      (if base.split.1 = .none then 0 else 1) + qs.countP (!isIdle ·) := by
    rw [components, List.length_append, ← hqs, length_filterMap_component?]
    cases base.split.1 <;> rfl
  have hpos : base.components.length ≠ 0 := by
    have hallows := allows_split hbase
    rw [hlength, ← length_filterMap_component?, hqs, length_filterMap_component?]
    cases ha : base.split.1 with
    | root | here => simp
    | none =>
      rw [ha] at hallows
      obtain ⟨first, others, hfirst, hidle⟩ := hallows
      simp [hfirst, hidle]
  obtain ⟨count, hcount⟩ := Nat.exists_eq_succ_of_ne_zero hpos
  -- as many pieces are dropped as the base has components, and points between them do not count
  obtain ⟨idles, hidles, hdrop⟩ := exists_dropPieces qs rest
  have hnumber : count + 1 - (if base.split.1 = .none then 0 else 1) =
      qs.countP (!isIdle ·) := by omega
  have hwhile : (idles ++ rest).dropWhile isIdle = rest.dropWhile isIdle :=
    List.dropWhile_append_of_pos fun p hp => List.all_eq_true.mp hidles p hp
  simp only [relativeTo?, hprefix, if_true, hcount, h]
  rw [← Nat.succ_eq_add_one] at hnumber
  simp only [Nat.succ_eq_add_one] at hnumber ⊢
  rw [hnumber, hdrop, hwhile]

/-- Names appended to a path are what the new path is relative to it. -/
theorem relativeTo?_join {base : Path} {ns : List String} (hbase : base.text ≠ "") (hne : ns ≠ [])
    (h : ∀ n ∈ ns, IsName n) : (base.join ⟨joined ns⟩).relativeTo? base = some ⟨joined ns⟩ := by
  have hopen : base.openPieces.filterMap component? = base.split.2.filterMap component? := by
    rcases base.openPieces_cases with hcases | hcases <;> rw [hcases]
    rw [List.filterMap_append]
    simp [component?, isIdle]
  rw [relativeTo?_of_split hbase (split_join base hne h) hopen]
  obtain ⟨first, rest, rfl⟩ := List.exists_cons_of_ne_nil hne
  have hfirst := (h first (List.mem_cons_self ..)).not_idle
  obtain ⟨init, last, hlast⟩ := List.eq_nil_or_concat (first :: rest) |>.resolve_left hne
  have hlast' : isIdle last = false := (h last (by simp [hlast])).not_idle
  rw [List.dropWhile_cons_of_neg (by simp [hfirst]), hlast, List.concat_eq_append,
    trimPieces_concat hlast']

/-- A path relative to itself is the empty path. -/
theorem relativeTo?_self {path : Path} (h : path.text ≠ "") :
    path.relativeTo? path = some ⟨""⟩ := by
  have hsplit : path.split = (path.split.1, path.split.2 ++ []) := by simp
  rw [relativeTo?_of_split h hsplit rfl]
  rfl

end Wireframe.Path
