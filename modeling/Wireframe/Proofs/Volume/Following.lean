import Wireframe.Proofs.FileSystem.Files
import Wireframe.Session

/-!
# Following links

Where a path leads in a volume, as a relation that says what each piece does (`Volume.Leads`);
following a path is finding this place (`Volume.follow_eq_ok_iff`). A volume may get new names
without getting new links (`Volume.Extends`). Then a path that leads to a place still leads there
(`Volume.Extends.locate`), because names that were there are what they were, and nothing on the way
is new.
-/

namespace Wireframe.Volume

open Wireframe.Path (isIdle IsName)
open FileSystem (refusal? Site dropSlashes)

variable {v v' : Volume} {links : ℕ} {location found : Location} {path : Path}
  {ps qs : List String}

/-- A new node is found at its place, and the others at theirs. -/
theorem node?_put (h : location ≠ []) (v : Volume) (node : Node) (place : Location) :
    (v.put location node).node? place = if place = location then some node else v.node? place := by
  by_cases hnil : place = []
  · rw [hnil, if_neg (Ne.symm h)]
    rfl
  · have hempty : place.isEmpty = false := by simpa using hnil
    have hcompare : compare location place = .eq ↔ place = location := by
      rw [Std.compare_eq_iff_eq, eq_comm]
    simp [node?, hempty, put, Std.ExtTreeMap.getElem?_insert, hcompare]

/-! ### Where pieces lead -/

/-- How pieces of a path lead from a place to another one, with at most so many links on the way. -/
inductive Leads (v : Volume) : ℕ → Location → List String → Location → Prop
  | nil {links : ℕ} {location : Location} : Leads v links location [] location
  | idle {links : ℕ} {location found : Location} {piece : String} {rest : List String} :
      v.node? location = some .directory → isIdle piece = true →
      Leads v links location rest found → Leads v links location (piece :: rest) found
  | up {links : ℕ} {location found : Location} {rest : List String} :
      v.node? location = some .directory →
      Leads v links location.dropLast rest found → Leads v links location (".." :: rest) found
  | name {links : ℕ} {location found : Location} {piece : String} {rest : List String} :
      v.node? location = some .directory → isIdle piece = false → piece ≠ ".." →
      (∀ target, v.node? (location ++ [piece]) ≠ some (.link target)) →
      Leads v links (location ++ [piece]) rest found → Leads v links location (piece :: rest) found
  /-- The pieces of a link stand in place of its name. -/
  | link {links : ℕ} {location found : Location} {piece : String} {rest : List String}
      {target : Path} :
      v.node? location = some .directory → isIdle piece = false → piece ≠ ".." →
      v.node? (location ++ [piece]) = some (.link target) →
      Leads v links (start location target) (target.split.2 ++ rest) found →
      Leads v (links + 1) location (piece :: rest) found

/-- Pieces are followed as they lead, if this is so for those of a link. -/
private theorem leads_of_followWith {onward : Location → List String → Except Fault Location}
    (honward : ∀ location ps found, onward location ps = .ok found →
      ∃ fewer, links = fewer + 1 ∧ v.Leads fewer location ps found)
    (h : v.followWith onward location ps = .ok found) : v.Leads links location ps found := by
  induction ps generalizing location with
  | nil =>
    cases h
    exact .nil
  | cons piece rest ih =>
    rw [followWith] at h
    split at h
    · cases h
    · cases h
    · cases h
    · next hdirectory =>
      split at h
      · next hidle => exact .idle hdirectory hidle (ih h)
      · next hidle =>
        rw [Bool.not_eq_true] at hidle
        split at h
        · next hup =>
          obtain rfl : piece = ".." := by simpa using hup
          exact .up hdirectory (ih h)
        · next hup =>
          rw [beq_iff_eq] at hup
          split at h
          · next target hlink =>
            obtain ⟨fewer, rfl, hleads⟩ := honward _ _ _ h
            exact .link hdirectory hidle hup hlink hleads
          · next hlink => exact .name hdirectory hidle hup hlink (ih h)

/-- To follow a path is to find where it leads. -/
theorem follow_eq_ok_iff : v.follow links location ps = .ok found ↔
    v.Leads links location ps found := by
  constructor
  · intro h
    induction links generalizing location ps found with
    | zero => exact leads_of_followWith (fun _ _ _ h => by cases h) h
    | succ links ih =>
      exact leads_of_followWith (fun location ps found h => ⟨links, rfl, ih h⟩) h
  · intro h
    induction h with
    | @nil links => cases links <;> rfl
    | @idle links _ _ _ _ hdirectory hidle _ ih =>
      cases links <;> simpa [follow, followWith, hdirectory, hidle] using ih
    | @up links _ _ _ hdirectory _ ih =>
      have hidle : isIdle ".." = false := by decide
      cases links <;> simpa [follow, followWith, hdirectory, hidle] using ih
    | @name links _ _ _ _ hdirectory hidle hup hlink _ ih =>
      cases links <;> simpa [follow, followWith, hdirectory, hidle, hup, hlink] using ih
    | link hdirectory hidle hup hlink _ ih =>
      simpa [follow, followWith, hdirectory, hidle, hup, hlink] using ih

namespace Leads

/-- Pieces one after the other lead from place to place. -/
theorem exists_append (h : v.Leads links location (ps ++ qs) found) :
    ∃ between fewer, v.Leads links location ps between ∧ v.Leads fewer between qs found := by
  generalize hall : ps ++ qs = all at h
  induction h generalizing ps with
  | nil =>
    obtain ⟨rfl, rfl⟩ := List.append_eq_nil_iff.mp hall
    exact ⟨_, 0, .nil, .nil⟩
  | idle hdirectory hidle hleads ih =>
    obtain ⟨rfl, rfl⟩ | ⟨ps, rfl, hrest⟩ := List.append_eq_cons_iff.mp hall
    · exact ⟨_, _, .nil, .idle hdirectory hidle hleads⟩
    · obtain ⟨between, fewer, hps, hqs⟩ := ih hrest.symm
      exact ⟨between, fewer, .idle hdirectory hidle hps, hqs⟩
  | up hdirectory hleads ih =>
    obtain ⟨rfl, rfl⟩ | ⟨ps, rfl, hrest⟩ := List.append_eq_cons_iff.mp hall
    · exact ⟨_, _, .nil, .up hdirectory hleads⟩
    · obtain ⟨between, fewer, hps, hqs⟩ := ih hrest.symm
      exact ⟨between, fewer, .up hdirectory hps, hqs⟩
  | name hdirectory hidle hup hlink hleads ih =>
    obtain ⟨rfl, rfl⟩ | ⟨ps, rfl, hrest⟩ := List.append_eq_cons_iff.mp hall
    · exact ⟨_, _, .nil, .name hdirectory hidle hup hlink hleads⟩
    · obtain ⟨between, fewer, hps, hqs⟩ := ih hrest.symm
      exact ⟨between, fewer, .name hdirectory hidle hup hlink hps, hqs⟩
  | link hdirectory hidle hup hlink hleads ih =>
    obtain ⟨rfl, rfl⟩ | ⟨ps, rfl, hrest⟩ := List.append_eq_cons_iff.mp hall
    · exact ⟨_, _, .nil, .link hdirectory hidle hup hlink hleads⟩
    · -- the pieces of the link come in front, and the cut stays where it was
      rw [hrest, ← List.append_assoc] at ih
      obtain ⟨between, fewer, hps, hqs⟩ := ih rfl
      exact ⟨between, fewer, .link hdirectory hidle hup hlink hps, hqs⟩

/-- Pieces can be followed by others that need no links. -/
theorem append {between : Location} (h : v.Leads links location ps between)
    (h' : ∀ links, v.Leads links between qs found) : v.Leads links location (ps ++ qs) found := by
  induction h with
  | nil => exact h' _
  | idle hdirectory hidle _ ih => exact .idle hdirectory hidle (ih h')
  | up hdirectory _ ih => exact .up hdirectory (ih h')
  | name hdirectory hidle hup hlink _ ih => exact .name hdirectory hidle hup hlink (ih h')
  | link hdirectory hidle hup hlink _ ih =>
    have hrest := ih h'
    rw [List.append_assoc] at hrest
    exact .link hdirectory hidle hup hlink hrest

/-- Pieces that say nothing lead nowhere else. -/
theorem idles (hdirectory : v.node? location = some .directory) (h : ps.all isIdle = true) :
    v.Leads links location ps location := by
  induction ps with
  | nil => exact .nil
  | cons p ps ih =>
    rw [List.all_cons, Bool.and_eq_true] at h
    exact .idle hdirectory h.1 (ih h.2)

/-- A piece is followed in a directory. -/
theorem directory {piece : String} (h : v.Leads links location (piece :: ps) found) :
    v.node? location = some .directory := by
  cases h <;> assumption

/-- A name leads to the place under it, unless it is a link. -/
theorem of_name {name : String} (hname : IsName name)
    (h : v.Leads links location [name] found)
    (hlink : ∀ target, v.node? (location ++ [name]) ≠ some (.link target)) :
    found = location ++ [name] := by
  cases h with
  | idle _ hidle _ => exact absurd hidle (by simp [hname.not_idle])
  | up _ _ => exact absurd rfl hname.not_up
  | name _ _ _ _ hleads =>
    cases hleads
    rfl
  | link _ _ _ htarget _ => exact absurd htarget (hlink _)

end Leads

theorem locate_eq_ok_iff : v.locate path = .ok found ↔
    v.Leads linkLimit (v.origin path) path.split.2 found :=
  follow_eq_ok_iff

/-- What a path leads to is at the place to which it leads. -/
theorem find_eq_ok_iff {node : Node} : v.find path = .ok (found, node) ↔
    refusal? path = none ∧ v.locate path = .ok found ∧ v.node? found = some node := by
  rw [find]
  split
  · next hrefusal => simp [hrefusal]
  · next hrefusal =>
    split
    · next hlocate => simp [hlocate]
    · next location hlocate =>
      rw [hlocate, hrefusal]
      split
      · next hnode =>
        refine ⟨nofun, ?_⟩
        rintro ⟨-, hfound, hsome⟩
        cases hfound
        rw [hnode] at hsome
        cases hsome
      · next node' hnode =>
        constructor
        · intro h
          cases h
          exact ⟨rfl, rfl, hnode⟩
        · rintro ⟨-, hfound, hsome⟩
          cases hfound
          rw [hnode] at hsome
          cases hsome
          rfl

theorem readBytes_of_find {number : ℕ} (h : v.find path = .ok (found, .file number)) :
    v.readBytes path = .ok (v.contents number) := by
  rw [readBytes, h]

/-! ### More names, and no more links -/

/-- Whether a volume is another one with more names, none of which is a link. -/
structure Extends (v v' : Volume) : Prop where
  workingDirectory : v'.workingDirectory = v.workingDirectory
  /-- A name that was there stands for what it stood for. -/
  kept : ∀ place node, v.node? place = some node → v'.node? place = some node
  /-- A link was there before. -/
  link : ∀ place target, v'.node? place = some (.link target) →
    v.node? place = some (.link target)

namespace Extends

protected theorem refl (v : Volume) : v.Extends v := ⟨rfl, fun _ _ h => h, fun _ _ h => h⟩

protected theorem trans {v'' : Volume} (h : v.Extends v') (h' : v'.Extends v'') : v.Extends v'' :=
  ⟨h'.workingDirectory.trans h.workingDirectory,
    fun place node hnode => h'.kept place node (h.kept place node hnode),
    fun place target hlink => h.link place target (h'.link place target hlink)⟩

/-- Pieces lead to where they led. -/
protected theorem leads (h : v.Extends v') (hleads : v.Leads links location ps found) :
    v'.Leads links location ps found := by
  induction hleads with
  | nil => exact .nil
  | idle hdirectory hidle _ ih => exact .idle (h.kept _ _ hdirectory) hidle ih
  | up hdirectory _ ih => exact .up (h.kept _ _ hdirectory) ih
  | name hdirectory hidle hup hlink _ ih =>
    exact .name (h.kept _ _ hdirectory) hidle hup
      (fun target htarget => hlink target (h.link _ _ htarget)) ih
  | link hdirectory hidle hup hlink _ ih =>
    exact .link (h.kept _ _ hdirectory) hidle hup (h.kept _ _ hlink) ih

theorem origin (h : v.Extends v') (path : Path) : v'.origin path = v.origin path := by
  rw [Volume.origin, Volume.origin, h.workingDirectory]

/-- A path leads to where it led. -/
protected theorem locate (h : v.Extends v') (hlocate : v.locate path = .ok found) :
    v'.locate path = .ok found := by
  rw [locate_eq_ok_iff] at hlocate ⊢
  rw [h.origin]
  exact h.leads hlocate

/-- What was found under a path is still found there. -/
protected theorem find (h : v.Extends v') {node : Node} (hfind : v.find path = .ok (found, node)) :
    v'.find path = .ok (found, node) := by
  obtain ⟨hrefusal, hlocate, hnode⟩ := find_eq_ok_iff.mp hfind
  exact find_eq_ok_iff.mpr ⟨hrefusal, h.locate hlocate, h.kept _ _ hnode⟩

end Extends

end Wireframe.Volume
