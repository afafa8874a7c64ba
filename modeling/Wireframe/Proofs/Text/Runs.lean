import Mathlib.Data.List.TakeDrop
import Mathlib.Data.List.TakeWhile

/-!
# Runs at the head of a text

Readers take the longest run of characters of some kind off the head of a text and look at what
stops it. A text is such a run all through (`span_of_all`), or the run is stopped by a character of
another kind (`span_append_cons`); there is no third case (`span_cases`). Runs are also what columns are
filled up with.
-/

namespace Wireframe.Text

variable {p : Char → Bool} {cs : List Char}

/-- A run ends at the first character that is not of its kind. -/
theorem span_append_cons {c : Char} (h : ∀ d ∈ cs, p d = true) (hc : p c = false)
    (rest : List Char) : (cs ++ c :: rest).span p = (cs, c :: rest) := by
  rw [List.span_eq_takeWhile_dropWhile, List.takeWhile_append_of_pos h,
    List.dropWhile_append_of_pos h, List.takeWhile_cons_of_neg (by simp [hc]),
    List.dropWhile_cons_of_neg (by simp [hc]), List.append_nil]

/-- A text of one kind is one run. -/
theorem span_of_all (h : ∀ d ∈ cs, p d = true) : cs.span p = (cs, []) := by
  rw [List.span_eq_takeWhile_dropWhile, List.takeWhile_eq_self_iff.mpr h,
    List.dropWhile_eq_nil_iff.mpr h]

/-- A text is one run, or a run and what stops it. -/
theorem span_cases (p : Char → Bool) (cs : List Char) : (∀ c ∈ cs, p c = true) ∨
    ∃ run c rest, cs = run ++ c :: rest ∧ (∀ d ∈ run, p d = true) ∧ p c = false := by
  induction cs with
  | nil => exact .inl fun _ hc => absurd hc List.not_mem_nil
  | cons first cs ih =>
    cases hfirst : p first with
    | false => exact .inr ⟨[], first, cs, rfl, fun _ hd => absurd hd List.not_mem_nil, hfirst⟩
    | true =>
      rcases ih with hall | ⟨run, c, rest, rfl, hrun, hc⟩
      · exact .inl (List.forall_mem_cons.mpr ⟨hfirst, hall⟩)
      · exact .inr ⟨first :: run, c, rest, rfl, List.forall_mem_cons.mpr ⟨hfirst, hrun⟩, hc⟩

/-! ### Up to a mark -/

variable {mark : Char}

theorem span_ne_of_not_mem (h : mark ∉ cs) : cs.span (· != mark) = (cs, []) :=
  span_of_all fun _ hc => bne_iff_ne.mpr (ne_of_mem_of_not_mem hc h)

theorem span_ne_append (h : mark ∉ cs) (rest : List Char) :
    (cs ++ mark :: rest).span (· != mark) = (cs, mark :: rest) :=
  span_append_cons (fun _ hc => bne_iff_ne.mpr (ne_of_mem_of_not_mem hc h))
    (bne_self_eq_false mark) rest

/-! ### Repeated characters -/

theorem toList_pushn (text : String) (c : Char) (count : ℕ) :
    (text.pushn c count).toList = text.toList ++ List.replicate count c := by
  rw [String.pushn_eq_repeat_push]
  induction count with
  | zero => simp [Nat.repeat]
  | succ count ih =>
    rw [Nat.repeat, String.toList_push, ih, List.replicate_succ', List.append_assoc]

end Wireframe.Text
