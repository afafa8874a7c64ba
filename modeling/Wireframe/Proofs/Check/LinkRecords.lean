import Mathlib.Data.List.Induction
import Mathlib.Data.List.Sort
import Wireframe.Check.DuplicateLinks
import Wireframe.Proofs.Text.Lines

/-!
# What is recorded about links

The check goes through the links of a page and keeps a record for each key. What it ends with has
a closed form (`linkRecords_eq`): one record for each link that is the first with its key, in the
order in which they stand on the page, with the numbers of all lines on which the key stands.

That is shown for one link more at a time. The records of the links so far are known; the next
link either goes into the one record with its key or makes a new one at the end.
-/

namespace Wireframe.Check

/-! ### Lines -/

/-- The numbers of the lines that hold a link with some property, if lines are counted from the
given number. -/
def linesWhere (p : LinkUse → Bool) (lines : List (List Char)) (start : ℕ) : List ℕ :=
  ((lines.zipIdx start).filter fun entry => (linkUses entry.1).any p).map (·.2)

theorem linesWhere_cons (p : LinkUse → Bool) (line : List Char) (rest : List (List Char))
    (start : ℕ) :
    linesWhere p (line :: rest) start =
      (if (linkUses line).any p then [start] else []) ++ linesWhere p rest (start + 1) :=
  Text.numbers_cons (fun line => (linkUses line).any p) line rest start

/-- A line counts if one of its links does. -/
theorem mem_linesWhere {p : LinkUse → Bool} {lines : List (List Char)} {start n : ℕ} :
    n ∈ linesWhere p lines start ↔
      ∃ line, (line, n) ∈ lines.zipIdx start ∧ ∃ link ∈ linkUses line, p link = true := by
  simp only [linesWhere, List.mem_map, List.mem_filter, List.any_eq_true]
  constructor
  · rintro ⟨⟨line, n⟩, ⟨hmem, hany⟩, rfl⟩
    exact ⟨line, hmem, hany⟩
  · rintro ⟨line, hmem, hany⟩
    exact ⟨(line, n), ⟨hmem, hany⟩, rfl⟩

theorem linesWhere_pairwise (p : LinkUse → Bool) (lines : List (List Char)) (start : ℕ) :
    (linesWhere p lines start).Pairwise (· < ·) :=
  Text.pairwise_numbers (fun line => (linkUses line).any p) lines start

/-- The numbers of the lines on which a link stands, counted from one. -/
def linesOf (lines : List (List Char)) (link : LinkUse) : List ℕ :=
  linesWhere (· = link) lines 1

/-- The numbers of the lines on which a link with some key stands, counted from one. -/
def linesOfKey (lines : List (List Char)) (key : List Char) : List ℕ :=
  linesWhere (·.key = key) lines 1

/-- The links of a page, in order. -/
def pageLinks (lines : List (List Char)) : List LinkUse := (linkUsesFrom lines 1).map (·.1)

/-! ### First links -/

/-- The links that are the first with their key, in order. -/
def firstLinks : List LinkUse → List LinkUse
  | [] => []
  | link :: rest => link :: (firstLinks rest).filter (·.key ≠ link.key)

/-- A link is a first one if none before it has its key. -/
theorem mem_firstLinks {links : List LinkUse} {link : LinkUse} :
    link ∈ firstLinks links ↔ links.find? (·.key = link.key) = some link := by
  induction links with
  | nil => simp [firstLinks]
  | cons other rest ih =>
    rw [firstLinks, List.mem_cons, List.mem_filter, List.find?_cons, ih]
    by_cases hkey : other.key = link.key
    · simp [hkey, eq_comm]
    · have hne : link ≠ other := fun h => hkey (h ▸ rfl)
      simp [hkey, hne, Ne.symm hkey]

/-- First links have different keys. -/
theorem firstLinks_pairwise (links : List LinkUse) :
    (firstLinks links).Pairwise (·.key ≠ ·.key) := by
  induction links with
  | nil => exact .nil
  | cons link rest ih =>
    refine .cons (fun other hother => ?_) (ih.filter _)
    have hne : other.key ≠ link.key := by simpa using (List.mem_filter.mp hother).2
    exact hne.symm

/-- Every key has its first link. -/
theorem any_key_firstLinks (links : List LinkUse) (key : List Char) :
    (firstLinks links).any (·.key = key) = links.any (·.key = key) := by
  induction links with
  | nil => rfl
  | cons other rest ih =>
    rw [firstLinks, List.any_cons, List.any_cons, ← ih, List.any_filter]
    by_cases hkey : other.key = key
    · simp [hkey]
    · congr 2
      funext link
      by_cases hlink : link.key = key
      · simp [hlink, Ne.symm hkey]
      · simp [hlink]

/-- A further link is a first one if its key is new. -/
theorem firstLinks_concat (links : List LinkUse) (link : LinkUse) :
    firstLinks (links ++ [link]) =
      firstLinks links ++ if links.any (·.key = link.key) then [] else [link] := by
  induction links with
  | nil => rfl
  | cons other rest ih =>
    rw [List.cons_append, firstLinks, firstLinks, ih, List.filter_append, List.any_cons]
    by_cases hkey : other.key = link.key
    · have hdropped : (if rest.any (·.key = link.key) then [] else [link]).filter
          (·.key ≠ other.key) = [] := by
        split_ifs <;> simp [hkey]
      rw [hdropped]
      simp [hkey]
    · have hkept : (if rest.any (·.key = link.key) then [] else [link]).filter
          (·.key ≠ other.key) = if rest.any (·.key = link.key) then [] else [link] := by
        split_ifs <;> simp [Ne.symm hkey]
      rw [hkept]
      simp [hkey]

/-! ### Records -/

/-- One link more: it goes into the record with its key, or makes a new one at the end. -/
theorem recordLink_map {links : List LinkUse} (hkeys : links.Pairwise (·.key ≠ ·.key))
    (seen : LinkUse → List ℕ) (link : LinkUse) (number : ℕ) :
    recordLink (links.map fun first => ⟨first, seen first⟩) link number =
      (links.map fun first =>
        ⟨first, if first.key = link.key then noteLine (seen first) number else seen first⟩) ++
        if links.any (·.key = link.key) then [] else [⟨link, [number]⟩] := by
  induction links with
  | nil => rfl
  | cons first rest ih =>
    obtain ⟨hfirst, hrest⟩ := List.pairwise_cons.mp hkeys
    rw [List.map_cons, recordLink, List.map_cons, List.any_cons]
    by_cases hkey : first.key = link.key
    · -- no other record has the key
      have hother : ∀ other ∈ rest, other.key ≠ link.key := fun other hmem h =>
        hfirst other hmem (hkey.trans h.symm)
      have hrest : (rest.map fun first : LinkUse => (⟨first,
          if first.key = link.key then noteLine (seen first) number else seen first⟩ :
          LinkRecord)) = rest.map fun first => ⟨first, seen first⟩ :=
        List.map_congr_left fun other hmem => by rw [if_neg (hother other hmem)]
      simp [hkey, hrest]
    · rw [if_neg hkey, ih hrest]
      simp [hkey]

/-- The line numbers among some links that are noted for a key. -/
def noted (key : List Char) (uses : List (LinkUse × ℕ)) : List ℕ :=
  ((uses.filter (·.1.key = key)).map (·.2)).foldl noteLine []

/-- A further link is noted under its own key only. -/
theorem noted_concat (key : List Char) (uses : List (LinkUse × ℕ)) (use : LinkUse × ℕ) :
    noted key (uses ++ [use]) =
      if key = use.1.key then noteLine (noted key uses) use.2 else noted key uses := by
  rw [noted, List.filter_append, List.map_append, List.foldl_append, ← noted]
  by_cases hkey : key = use.1.key
  · simp [hkey]
  · simp [hkey, Ne.symm hkey]

/-- Links that have been gone through: one record for each that is the first with its key. -/
theorem foldl_recordLink (uses : List (LinkUse × ℕ)) :
    uses.foldl (fun records found => recordLink records found.1 found.2) [] =
      (firstLinks (uses.map (·.1))).map fun link => ⟨link, noted link.key uses⟩ := by
  induction uses using List.reverseRecOn with
  | nil => rfl
  | append_singleton uses use ih =>
    rw [List.foldl_append, ih, List.map_append, List.map_singleton, firstLinks_concat,
      List.map_append]
    change recordLink _ use.1 use.2 = _
    rw [recordLink_map (firstLinks_pairwise _), any_key_firstLinks]
    simp only [noted_concat]
    congr 1
    split_ifs with hany
    · rfl
    · have hnone : uses.filter (·.1.key = use.1.key) = [] := by
        rw [List.filter_eq_nil_iff]
        intro other hother h
        exact hany (List.any_eq_true.mpr ⟨_, List.mem_map_of_mem hother, h⟩)
      simp [noted, hnone, noteLine]

/-! ### Line numbers -/

/-- A line that is noted already is not noted again. -/
theorem foldl_noteLine_replicate (numbers : List ℕ) (number count : ℕ) :
    (List.replicate count number).foldl noteLine (numbers ++ [number]) = numbers ++ [number] := by
  induction count with
  | zero => rfl
  | succ count ih =>
    rw [List.replicate_succ, List.foldl_cons, noteLine, if_pos List.getLast?_concat, ih]

/-- The links of one line: its number is noted once if one of them has the property. -/
theorem foldl_noteLine_line (p : LinkUse → Bool) (links : List LinkUse) {numbers : List ℕ}
    {number : ℕ} (h : ∀ n ∈ numbers, n < number) :
    (((links.map (·, number)).filter fun use => p use.1).map (·.2)).foldl noteLine numbers =
      numbers ++ if links.any p then [number] else [] := by
  -- the links with the property all give the same number
  have hcount : ((links.map (·, number)).filter fun use => p use.1).map (·.2) =
      List.replicate (links.filter p).length number := by
    rw [List.filter_map, List.map_map, ← List.map_const']
    rfl
  rw [hcount]
  cases hfilter : links.filter p with
  | nil =>
    have hany : ¬ links.any p = true := by
      rw [List.any_eq_true]
      rintro ⟨link, hlink, hp⟩
      exact List.filter_eq_nil_iff.mp hfilter link hlink hp
    rw [if_neg hany, List.append_nil]
    rfl
  | cons link rest =>
    have hlink : link ∈ links.filter p := hfilter ▸ List.mem_cons_self ..
    have hany : links.any p = true :=
      List.any_eq_true.mpr ⟨link, List.mem_filter.mp hlink⟩
    have hlast : numbers.getLast? ≠ some number := fun hlast =>
      Nat.lt_irrefl _ (h number (List.mem_of_getLast? hlast))
    rw [List.length_cons, List.replicate_succ, List.foldl_cons, noteLine, if_neg hlast,
      foldl_noteLine_replicate, if_pos hany]

/-- The lines below add their numbers, each once and in order. -/
theorem foldl_noteLine_linkUsesFrom (p : LinkUse → Bool) (lines : List (List Char)) (start : ℕ)
    {numbers : List ℕ} (h : ∀ n ∈ numbers, n < start) :
    (((linkUsesFrom lines start).filter fun use => p use.1).map (·.2)).foldl noteLine numbers =
      numbers ++ linesWhere p lines start := by
  induction lines generalizing start numbers with
  | nil => exact (List.append_nil _).symm
  | cons line rest ih =>
    rw [linkUsesFrom, List.filter_append, List.map_append, List.foldl_append,
      foldl_noteLine_line p _ h, linesWhere_cons, ← List.append_assoc]
    refine ih (start + 1) fun n hn => ?_
    rcases List.mem_append.mp hn with hn | hn
    · exact Nat.lt_succ_of_lt (h n hn)
    · split_ifs at hn
      · rw [List.mem_singleton.mp hn]
        exact Nat.lt_succ_self start
      · exact absurd hn List.not_mem_nil

/-- **What is recorded about the links of a page**: one record for each link that is the first
with its key, in order, with the numbers of all lines on which the key stands. -/
theorem linkRecords_eq (lines : List (List Char)) :
    linkRecords lines =
      (firstLinks (pageLinks lines)).map fun link => ⟨link, linesOfKey lines link.key⟩ := by
  have hnoted : ∀ key, noted key (linkUsesFrom lines 1) = linesOfKey lines key := fun key =>
    foldl_noteLine_linkUsesFrom (·.key = key) lines 1 (fun n hn => absurd hn List.not_mem_nil)
  rw [linkRecords, foldl_recordLink, pageLinks]
  simp only [hnoted]

end Wireframe.Check
