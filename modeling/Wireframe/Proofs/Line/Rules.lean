import Mathlib.Data.List.Nodup
import Mathlib.Data.List.TakeWhile
import Wireframe.Proofs.Document.Sections

/-!
# Which rule a line is read by

A line is read by a rule if that applies to the trimmed line and none that is tried before it does
(`read?_eq_some_iff`). The rule can be told from what the line stands for: each kind of element is
made by one rule only (`Rule.eq_of_mem`).
-/

namespace Wireframe

/-- The rule that makes elements of a kind. -/
def Element.rule : Element → Line.Rule
  | heading .. => .heading
  | button _ => .buttons
  | image _ => .image
  | input _ => .input
  | link .. => .links
  | text _ => .text
  | listItem _ => .listItem
  | divider => .divider
  | landmark .. => .landmark
  | skipLink _ => .skipLink

namespace Line

namespace Rule

/-- The rules that are tried before a rule. -/
def before (rule : Rule) : List Rule := inOrder.takeWhile (· ≠ rule)

theorem before_eq {rule : Rule} {earlier later : List Rule}
    (h : inOrder = earlier ++ rule :: later) : rule.before = earlier := by
  have hnodup : (earlier ++ rule :: later).Nodup := h ▸ (by decide : inOrder.Nodup)
  have hne : ∀ other ∈ earlier, decide (other ≠ rule) = true := fun other hother =>
    decide_eq_true (List.nodup_append.mp hnodup |>.2.2 other hother rule (List.mem_cons_self ..))
  rw [before, h, List.takeWhile_append_of_pos hne, List.takeWhile_cons_of_neg (by simp),
    List.append_nil]

theorem exists_inOrder_eq (rule : Rule) : ∃ later, inOrder = rule.before ++ rule :: later := by
  cases rule <;> exact ⟨_, rfl⟩

/-- An element of a line is made by the rule for its kind. -/
theorem eq_of_mem {rule : Rule} {line : List Char} {meaning : Meaning} {element : Element}
    (h : rule.meaning? line = some meaning) (hmem : element ∈ meaning.content) :
    rule = element.rule := by
  cases rule with
  | metadata | landmark | heading | image | input | listItem =>
    obtain ⟨found, -, rfl⟩ := Option.map_eq_some_iff.mp h
    simp_all [Meaning.content, Element.rule]
  | buttons | links =>
    obtain ⟨-, rfl⟩ := someElements_eq_some_iff.mp h
    obtain ⟨found, -, rfl⟩ := List.mem_map.mp hmem
    rfl
  | skipLink | divider =>
    obtain ⟨-, hmeaning⟩ := Option.ite_none_right_eq_some.mp h
    obtain rfl := Option.some.inj hmeaning
    obtain rfl := List.mem_singleton.mp hmem
    rfl
  | text =>
    obtain ⟨-, hmeaning⟩ := Option.ite_none_left_eq_some.mp h
    obtain rfl := Option.some.inj hmeaning
    obtain rfl := List.mem_singleton.mp hmem
    rfl

end Rule

variable {rule : Rule} {line : List Char} {meaning : Meaning}

/-- The first rule that applies is one before which no rule applies. -/
theorem firstRule?_eq_some_iff : firstRule? line = some (rule, meaning) ↔
    (∀ earlier ∈ rule.before, earlier.meaning? line = none) ∧
      rule.meaning? line = some meaning := by
  rw [firstRule?, List.findSome?_eq_some_iff]
  constructor
  · rintro ⟨earlier, found, later, horder, hfound, hnone⟩
    obtain ⟨m, hm, heq⟩ := Option.map_eq_some_iff.mp hfound
    obtain ⟨rfl, rfl⟩ := Prod.mk.inj heq
    rw [Rule.before_eq horder]
    exact ⟨fun other hother => Option.map_eq_none_iff.mp (hnone other hother), hm⟩
  · rintro ⟨hnone, hm⟩
    obtain ⟨later, horder⟩ := rule.exists_inOrder_eq
    refine ⟨rule.before, rule, later, horder, Option.map_eq_some_iff.mpr ⟨_, hm, rfl⟩, ?_⟩
    exact fun other hother => Option.map_eq_none_iff.mpr (hnone other hother)

/-- A line is read by a rule if that applies to the trimmed line and none before it does. -/
theorem read?_eq_some_iff : read? line = some (rule, meaning) ↔
    Text.trim line ≠ [] ∧ (∀ earlier ∈ rule.before, earlier.meaning? (Text.trim line) = none) ∧
      rule.meaning? (Text.trim line) = some meaning := by
  rw [read?, Option.ite_none_left_eq_some, firstRule?_eq_some_iff, List.isEmpty_iff]

end Line

end Wireframe
