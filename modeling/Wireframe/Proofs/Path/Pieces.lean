import Mathlib.Data.List.DropRight
import Wireframe.Path
import Wireframe.Proofs.Text.Lines

/-!
# Paths and their pieces

A path is an anchor and the pieces behind it, and what is made from a path is made from these. An
anchor allows some lists of pieces and not others: a relative path must not begin with an empty
piece, which would be taken for the root. Whatever an anchor allows is read back as it was put
together (`Path.split_build`).

With that, each operation on paths is one on pieces: joining appends names (`Path.split_join`), a
new extension replaces the last piece (`Path.split_withExtension`), and the parent leaves it out
(`Path.parent?_eq`). The names that lead from a directory to a file below it are what the path of
the file is relative to that of the directory (`Path.relativeTo?_join`).
-/

namespace Wireframe

namespace Text

/-- To put a character between texts is to join them with it. -/
theorem intercalate_singleton (sep : Char) (pieces : List (List Char)) :
    [sep].intercalate pieces = joinWith sep pieces := by
  induction pieces with
  | nil => rfl
  | cons piece rest ih =>
    cases rest with
    | nil => simp [joinWith]
    | cons next rest =>
      rw [List.intercalate_cons_cons, ih, joinWith_cons (List.cons_ne_nil _ _), List.append_assoc]
      rfl

end Text

namespace Path

/-! ### Anchors and pieces -/

/-- The piece that stands for an anchor in front of other pieces. -/
def Anchor.pieces : Anchor → List String
  | .root => [""]
  | .here => ["."]
  | .none => []

/-- Whether pieces can stand behind an anchor, so that they are not taken for anything else. -/
def Anchor.Allows : Anchor → List String → Prop
  | .root, ps => ps ≠ []
  | .here, _ => True
  | .none, ps => ∃ first rest, ps = first :: rest ∧ isIdle first = false

/-- Pieces that may follow an anchor may do so with others behind them. -/
theorem Anchor.Allows.append {a : Anchor} {ps : List String} (h : a.Allows ps)
    (qs : List String) : a.Allows (ps ++ qs) := by
  cases a with
  | root => exact List.append_ne_nil_of_left_ne_nil h qs
  | here => trivial
  | none =>
    obtain ⟨first, rest, rfl, hfirst⟩ := h
    exact ⟨first, rest ++ qs, rfl, hfirst⟩

/-- The first of some pieces that may follow an anchor may do so alone. -/
theorem Anchor.Allows.of_append {a : Anchor} {ps qs : List String} (h : a.Allows (ps ++ qs))
    (hne : ps ≠ []) : a.Allows ps := by
  obtain ⟨p, ps, rfl⟩ := List.exists_cons_of_ne_nil hne
  cases a with
  | root => exact hne
  | here => trivial
  | none =>
    obtain ⟨first, rest, heq, hfirst⟩ := h
    obtain ⟨rfl, -⟩ := List.cons.inj heq
    exact ⟨p, ps, rfl, hfirst⟩

/-- Any anchor may be followed by a piece that says something. -/
theorem Anchor.allows_cons {a : Anchor} {first : String} (h : isIdle first = false)
    (rest : List String) : a.Allows (first :: rest) := by
  cases a with
  | root => exact List.cons_ne_nil _ _
  | here => trivial
  | none => exact ⟨first, rest, rfl, h⟩

theorem toList_joined (ps : List String) :
    (joined ps).toList = Text.joinWith '/' (ps.map String.toList) := by
  rw [joined, String.toList_intercalate, ← Text.intercalate_singleton]
  rfl

theorem joined_singleton (p : String) : joined [p] = p := by
  rw [← String.toList_inj, toList_joined]
  rfl

/-- Pieces without slashes are given back from the path that they are joined to. -/
theorem pieces_joined {ps : List String} (hne : ps ≠ []) (h : ∀ p ∈ ps, '/' ∉ p.toList) :
    pieces ⟨joined ps⟩ = ps := by
  rw [pieces, toList_joined, Text.splitOn_joinWith]
  · simp
  · simpa using hne
  · simpa using h

/-- A path is its pieces with slashes between them. -/
theorem joined_pieces (path : Path) : joined path.pieces = path.text := by
  rw [← String.toList_inj, toList_joined, pieces, List.map_map]
  have hround : String.toList ∘ String.ofList = id := funext fun cs => String.toList_ofList
  rw [hround, List.map_id, Text.joinWith_splitOn]

/-- A piece in front of others is joined to them by a slash. -/
theorem joined_cons (p : String) {ps : List String} (hne : ps ≠ []) :
    joined (p :: ps) = p ++ "/" ++ joined ps := by
  rw [← String.toList_inj, toList_joined, List.map_cons, Text.joinWith_cons (by simpa using hne),
    String.toList_append, String.toList_append, toList_joined, List.append_assoc]
  rfl

/-- A path that is built is the pieces of its anchor and the others, joined. -/
theorem build_eq {a : Anchor} {ps : List String} (h : a.Allows ps) :
    build a ps = ⟨joined (a.pieces ++ ps)⟩ := by
  cases a with
  | root =>
    rw [Anchor.pieces, List.singleton_append, joined_cons "" h, build]
    rfl
  | here =>
    cases ps with
    | nil => rfl
    | cons p ps =>
      rw [Anchor.pieces, List.singleton_append, joined_cons "." (List.cons_ne_nil _ _), build]
      · rfl
      · exact List.cons_ne_nil _ _
  | none => rfl

theorem pieces_split (path : Path) : path.pieces = path.split.1.pieces ++ path.split.2 := by
  rw [split]
  split <;> simp_all [Anchor.pieces]

/-- What a path is split into determines how it is written. -/
theorem eq_of_split {path path' : Path} (h : path.split = path'.split) : path = path' := by
  have htext : path.text = path'.text := by
    rw [← joined_pieces, ← joined_pieces, pieces_split, pieces_split, h]
  cases path
  cases path'
  exact congrArg Path.mk htext

/-- A path splits into an anchor and pieces if these may follow the anchor and make up the path. -/
theorem split_eq {path : Path} {a : Anchor} {ps : List String} (h : a.Allows ps)
    (hpieces : path.pieces = a.pieces ++ ps) : path.split = (a, ps) := by
  rw [split, hpieces]
  cases a with
  | root =>
    obtain ⟨p, ps, rfl⟩ := List.exists_cons_of_ne_nil h
    rfl
  | here => cases ps <;> rfl
  | none =>
    obtain ⟨first, rest, rfl, hfirst⟩ := h
    -- the first piece is neither empty nor a point, so it stands for no anchor
    simp only [isIdle, Bool.or_eq_false_iff, beq_eq_false_iff_ne] at hfirst
    simp only [Anchor.pieces, List.nil_append]
    split <;> simp_all

/-- What is put together from an anchor and pieces that it allows is read back as these. -/
theorem split_build {a : Anchor} {ps : List String} (h : a.Allows ps)
    (hslash : ∀ p ∈ ps, '/' ∉ p.toList) : (build a ps).split = (a, ps) := by
  refine split_eq h ?_
  rw [build_eq h]
  apply pieces_joined
  · cases a with
    | root => exact List.cons_ne_nil _ _
    | here => exact List.cons_ne_nil _ _
    | none =>
      obtain ⟨first, rest, rfl, -⟩ := h
      exact List.cons_ne_nil _ _
  · intro p hp
    rcases List.mem_append.mp hp with hp | hp
    · cases a <;> simp_all [Anchor.pieces]
    · exact hslash p hp

/-- A piece holds no slash. -/
theorem slash_not_mem {path : Path} {p : String} (h : p ∈ path.split.2) : '/' ∉ p.toList := by
  have hp : p ∈ path.pieces := by
    rw [pieces_split]
    exact List.mem_append_right _ h
  obtain ⟨cs, hcs, rfl⟩ := List.mem_map.mp hp
  rw [String.toList_ofList]
  exact Text.not_mem_of_mem_splitOn hcs

theorem split_empty : split ⟨""⟩ = (.none, [""]) := by decide

/-- The pieces of a path may follow its anchor. -/
theorem allows_split {path : Path} (h : path.text ≠ "") : path.split.1.Allows path.split.2 := by
  have hjoined := path.joined_pieces
  rw [split]
  split
  · exact List.cons_ne_nil _ _
  · trivial
  · rename_i hroot hhere
    match hps : path.pieces with
    | [] =>
      rw [hps] at hjoined
      exact absurd hjoined.symm h
    | first :: rest =>
      refine ⟨first, rest, rfl, ?_⟩
      rw [isIdle, Bool.or_eq_false_iff, beq_eq_false_iff_ne, beq_eq_false_iff_ne]
      refine ⟨?_, fun hfirst => hhere rest (by rw [hps, hfirst])⟩
      rintro rfl
      cases rest with
      | nil =>
        rw [hps] at hjoined
        exact h hjoined.symm
      | cons second rest => exact hroot second rest hps

/-! ### Null characters -/

/-- Whether a path holds no null character, as one that is to name something must not. -/
def Clean (path : Path) : Prop := '\x00' ∉ path.text.toList

instance (path : Path) : Decidable path.Clean :=
  inferInstanceAs (Decidable ('\x00' ∉ path.text.toList))

/-- A path holds a null character if a piece of it does. -/
theorem null_mem_joined {ps : List String} (hne : ps ≠ []) :
    '\x00' ∈ (joined ps).toList ↔ ∃ p ∈ ps, '\x00' ∈ p.toList := by
  rw [toList_joined]
  induction ps with
  | nil => exact absurd rfl hne
  | cons p ps ih =>
    cases ps with
    | nil => simp [Text.joinWith]
    | cons next ps =>
      rw [List.map_cons, Text.joinWith_cons (by simp), List.mem_append, List.mem_cons,
        ih (List.cons_ne_nil _ _), List.exists_mem_cons_iff]
      simp

/-- A path is clean if each of its pieces is. -/
theorem clean_iff {path : Path} : path.Clean ↔ ∀ p ∈ path.split.2, '\x00' ∉ p.toList := by
  have hne : path.pieces ≠ [] := by
    simpa [pieces] using Text.splitOn_ne_nil '/' path.text.toList
  have hanchor : ∀ p ∈ path.split.1.pieces, '\x00' ∉ p.toList := by
    cases path.split.1 <;> decide
  rw [Clean, ← joined_pieces, null_mem_joined hne, pieces_split]
  constructor
  · exact fun h p hp hnull => h ⟨p, List.mem_append_right _ hp, hnull⟩
  · rintro h ⟨p, hp, hnull⟩
    rcases List.mem_append.mp hp with hp | hp
    · exact hanchor p hp hnull
    · exact h p hp hnull

/-! ### Components and pieces -/

/-- The pieces that are no components are those that say nothing. -/
theorem component?_eq_none_iff {piece : String} :
    component? piece = none ↔ isIdle piece = true := by
  rw [component?]
  split
  · simp_all
  · split <;> simp_all

theorem component?_of_not_idle {piece : String} (h : isIdle piece = false) :
    component? piece = some .up ∨ component? piece = some (.name piece) := by
  rw [component?, h]
  by_cases hup : piece = ".." <;> simp [hup]

theorem components_of_split {path : Path} {a : Anchor} {ps : List String}
    (h : path.split = (a, ps)) :
    path.components = a.component?.toList ++ ps.filterMap component? := by
  rw [components, h]

/-! ### Pieces at the end -/

section Rest

variable {p : String → Bool} {rest : List String} {last : String}

/-- What is dropped at the end of a list reaches its first element only if nothing else is left. -/
theorem rdropWhile_cons (p : String → Bool) (piece : String) (ps : List String) :
    (piece :: ps).rdropWhile p =
      match ps.rdropWhile p with
      | [] => if p piece then [] else [piece]
      | kept => piece :: kept := by
  rw [List.rdropWhile, List.reverse_cons, List.dropWhile_append]
  cases hps : ps.rdropWhile p with
  | nil =>
    rw [List.rdropWhile, List.reverse_eq_nil_iff] at hps
    cases hp : p piece <;> simp [hps, hp]
  | cons first others =>
    rw [List.rdropWhile, List.reverse_eq_iff] at hps
    simp [hps]

theorem rdropWhile_append_of_pos (h : rest.all p = true) (ps : List String) :
    (ps ++ rest).rdropWhile p = ps.rdropWhile p := by
  rw [List.rdropWhile, List.reverse_append, List.dropWhile_append_of_pos (by simpa using h),
    List.rdropWhile]

/-- What is dropped at the end of a list ends at the last element that is kept. -/
theorem rdropWhile_append_cons (hlast : p last = false) (hrest : rest.all p = true)
    (ps : List String) : (ps ++ last :: rest).rdropWhile p = ps ++ [last] := by
  rw [List.append_cons, rdropWhile_append_of_pos hrest,
    List.rdropWhile_concat_neg _ _ _ (by simp [hlast])]

/-- A list is what is left of it and the elements that are dropped. -/
theorem exists_rdropWhile_append (p : String → Bool) (ps : List String) :
    ∃ rest, rest.all p = true ∧ ps = ps.rdropWhile p ++ rest ∧
      (ps.rdropWhile p = [] ∨ ∃ init last, ps.rdropWhile p = init ++ [last] ∧ p last = false) := by
  refine ⟨ps.rtakeWhile p, ?_, List.rdropWhile_append_rtakeWhile.symm, ?_⟩
  · exact List.all_eq_true.mpr fun piece => List.mem_rtakeWhile_imp
  · refine (Decidable.em (ps.rdropWhile p = [])).imp_right fun hne => ?_
    exact ⟨_, _, (List.dropLast_append_getLast hne).symm,
      Bool.not_eq_true _ ▸ List.rdropWhile_last_not p ps hne⟩

end Rest

/-- To trim pieces is to drop those at the end that say nothing. -/
theorem trimPieces_eq (ps : List String) : trimPieces ps = ps.rdropWhile isIdle := by
  induction ps with
  | nil => rfl
  | cons p ps ih =>
    rewrite [trimPieces, rdropWhile_cons, ih]
    cases ps.rdropWhile isIdle <;> rfl

theorem trimPieces_append_cons {ps idles : List String} {last : String}
    (hlast : isIdle last = false) (hidles : idles.all isIdle = true) :
    trimPieces (ps ++ last :: idles) = ps ++ [last] := by
  rw [trimPieces_eq, rdropWhile_append_cons hlast hidles]

theorem trimPieces_concat {last : String} (h : isIdle last = false) (ps : List String) :
    trimPieces (ps ++ [last]) = ps ++ [last] := trimPieces_append_cons h rfl

/-- What is left out at the end of pieces is idle, and what is kept ends in a piece that is not. -/
theorem exists_trimPieces_append (ps : List String) : ∃ idles, idles.all isIdle = true ∧
    ps = trimPieces ps ++ idles ∧
    (trimPieces ps = [] ∨ ∃ init last, trimPieces ps = init ++ [last] ∧ isIdle last = false) := by
  rw [trimPieces_eq]
  exact exists_rdropWhile_append isIdle ps

/-! ### Parents -/

variable {path : Path} {a : Anchor} {ps idles : List String} {last : String}

/-- A path with a piece that says something is not empty. -/
theorem text_ne_of_split (h : path.split = (a, ps ++ last :: idles)) (hlast : isIdle last = false) :
    path.text ≠ "" := by
  rintro htext
  obtain rfl : path = ⟨""⟩ := by cases path; simp_all
  rw [split_empty] at h
  obtain ⟨-, hps⟩ := Prod.mk.inj h
  have hmem : last ∈ [""] := hps ▸ List.mem_append_right _ (List.mem_cons_self ..)
  rw [List.mem_singleton.mp hmem] at hlast
  exact absurd hlast (by decide)

theorem filterMap_component?_of_idle (h : idles.all isIdle = true) :
    idles.filterMap component? = [] := by
  rw [List.filterMap_eq_nil_iff]
  exact fun p hp => component?_eq_none_iff.mpr (List.all_eq_true.mp h p hp)

/-- Trimming leaves out no component. -/
theorem filterMap_trimPieces (ps : List String) :
    (trimPieces ps).filterMap component? = ps.filterMap component? := by
  obtain ⟨rest, hrest, hps, -⟩ := exists_trimPieces_append ps
  nth_rewrite 2 [hps]
  rw [List.filterMap_append, filterMap_component?_of_idle hrest, List.append_nil]

/-- The last component of a path is its last piece that says something. -/
theorem components_eq_concat (h : path.split = (a, ps ++ last :: idles))
    (hlast : isIdle last = false) (hidles : idles.all isIdle = true) :
    ∃ c, component? last = some c ∧ (c = .up ∨ c = .name last) ∧
      path.components = a.component?.toList ++ ps.filterMap component? ++ [c] := by
  rcases component?_of_not_idle hlast with hc | hc <;>
    refine ⟨_, hc, by simp, ?_⟩ <;>
    rw [components_of_split h, List.filterMap_append, List.filterMap_cons, hc,
      filterMap_component?_of_idle hidles, List.append_assoc]

/-- The last component of a path comes from its last piece that says something. -/
theorem getLast?_components (h : path.split = (a, ps ++ last :: idles))
    (hlast : isIdle last = false) (hidles : idles.all isIdle = true) :
    path.components.getLast? = component? last := by
  obtain ⟨c, hc, -, hcomponents⟩ := components_eq_concat h hlast hidles
  rw [hcomponents, List.getLast?_concat, hc]

/-- The parent of a path leaves out the last piece that says anything, with what is idle around
it. -/
theorem parent?_eq (h : path.split = (a, ps ++ last :: idles)) (hlast : isIdle last = false)
    (hidles : idles.all isIdle = true) : path.parent? = some (build a (trimPieces ps)) := by
  have hcomponents := getLast?_components h hlast hidles
  rcases component?_of_not_idle hlast with hc | hc <;>
    simp only [parent?, hcomponents, hc, h, trimPieces_append_cons hlast hidles,
      List.dropLast_concat]

/-- The pieces of a parent lead where those of the path lead without the last one. -/
theorem split_parent (h : path.split = (a, ps ++ last :: idles)) (hlast : isIdle last = false) :
    (build a (trimPieces ps)).split = (a, trimPieces ps) ∨
      trimPieces ps = [] ∧ (build a (trimPieces ps)).split = (a, [""]) := by
  have hpath := text_ne_of_split h hlast
  have hallows : a.Allows (ps ++ last :: idles) := by
    have := allows_split hpath
    rwa [h] at this
  obtain ⟨rest, -, hps, -⟩ := exists_trimPieces_append ps
  by_cases hnil : trimPieces ps = []
  · rw [hnil]
    cases a with
    | here => exact .inl (by decide)
    | root => exact .inr ⟨rfl, by decide⟩
    | none => exact .inr ⟨rfl, by decide⟩
  · refine .inl (split_build ?_ ?_)
    · rw [hps, List.append_assoc] at hallows
      exact hallows.of_append hnil
    · intro p hp
      have hmem : p ∈ path.split.2 := by
        rw [h, hps]
        simp [hp]
      exact slash_not_mem hmem

/-- A path that says nothing but its anchor, or one with a last piece that says something. -/
theorem eq_idle_or_eq_append (path : Path) : path.split.2.all isIdle = true ∨
    ∃ ps last idles, path.split = (path.split.1, ps ++ last :: idles) ∧ isIdle last = false ∧
      idles.all isIdle = true := by
  obtain ⟨idles, hidles, hps, hnil | ⟨init, last, hinit, hlast⟩⟩ :=
    exists_trimPieces_append path.split.2
  · rw [hnil, List.nil_append] at hps
    exact .inl (hps ▸ hidles)
  · refine .inr ⟨init, last, idles, ?_, hlast, hidles⟩
    rw [hinit, List.append_assoc, List.singleton_append] at hps
    rw [← hps]

/-- The parent of a path has all components but the last one. -/
theorem components_parent {parent : Path} (h : path.parent? = some parent) :
    parent.components = path.components.dropLast := by
  rcases path.eq_idle_or_eq_append with hidle | ⟨ps, last, idles, hsplit, hlast, hidles⟩
  · have hcomponents : path.components = path.split.1.component?.toList := by
      rw [components, filterMap_component?_of_idle hidle, List.append_nil]
    rw [parent?, hcomponents] at h
    rw [hcomponents]
    cases ha : path.split.1 <;> rw [ha] at h <;> cases h
    decide
  · obtain ⟨c, -, -, hcomponents⟩ := components_eq_concat hsplit hlast hidles
    rw [parent?_eq hsplit hlast hidles, Option.some.injEq] at h
    rw [hcomponents, List.dropLast_concat, ← h]
    rcases split_parent hsplit hlast with hparent | ⟨hnil, hparent⟩ <;>
      rw [components_of_split hparent]
    · rw [filterMap_trimPieces]
    · rw [← filterMap_trimPieces ps, hnil]
      rfl

/-- What a path lies in is its parent and what that lies in. -/
theorem ancestors_of_parent {parent : Path} (h : path.parent? = some parent) :
    path.ancestors = path :: parent.ancestors := by
  have hne : path.components ≠ [] := by
    intro hnil
    simp [parent?, hnil] at h
  have hlength : path.components.length = parent.components.length + 1 := by
    rw [components_parent h, List.length_dropLast]
    have := List.length_pos_iff.mpr hne
    omega
  rw [ancestors, hlength, upFrom, h]
  rfl

theorem ancestors_of_no_parent (h : path.parent? = none) : path.ancestors = [path] := by
  rw [ancestors]
  cases path.components.length <;> simp [upFrom, h]

/-- The first of what a path lies in is the path itself. -/
theorem exists_ancestors_eq (path : Path) : ∃ above, path.ancestors = path :: above := by
  cases hparent : path.parent? with
  | none => exact ⟨[], ancestors_of_no_parent hparent⟩
  | some parent => exact ⟨_, ancestors_of_parent hparent⟩

end Path

end Wireframe
