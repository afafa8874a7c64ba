import Wireframe.Check
import Wireframe.Proofs.Check.HeadingLines
import Wireframe.Proofs.Line.Links
import Wireframe.Proofs.Text.Lines

/-!
# Carriage returns behind a line

A carriage return in front of a line feed belongs to the end of the line, while one at the very end
of a text belongs to the last line. The checks do not tell the two apart: neither a heading nor an
entry of the metadata reaches up to it, it is blank, and no link can be closed by it. So the links
of a line (`links_concat_return`) and all else that is looked for in it are the same with a carriage
return behind it and without.
-/

namespace Wireframe

/-! ### Links -/

namespace Line

/-- A last character that is no bracket opens no link. -/
theorem opensLink_of_concat {c : Char} (hopening : c ≠ '[') (hclosing : c ≠ ']') {cs : List Char}
    (h : OpensLink (cs ++ [c])) : OpensLink cs := by
  obtain ⟨inside, heq, hhead, hmem⟩ := h
  cases cs with
  | nil => exact absurd (List.cons.inj heq).1 hopening
  | cons first rest =>
    rw [List.cons_append] at heq
    obtain ⟨rfl, rfl⟩ := List.cons.inj heq
    have hrest : ']' ∈ rest := by simpa [Ne.symm hclosing] using hmem
    refine ⟨rest, rfl, fun hfirst => hhead ?_, hrest⟩
    rw [List.head?_append, hfirst, Option.some_or]

/-- A last character that is no parenthesis makes no destination. -/
theorem startsWithUrl_of_concat {c : Char} (hopening : c ≠ '(') (hclosing : c ≠ ')')
    {cs : List Char} (h : StartsWithUrl (cs ++ [c])) : StartsWithUrl cs := by
  obtain ⟨url, rest, heq, hne, hurl⟩ := h
  cases cs with
  | nil => exact absurd (List.cons.inj heq).1 hopening
  | cons first inside =>
    obtain ⟨rfl, hinside⟩ := List.cons.inj heq
    -- the last character stands behind the destination
    rcases List.eq_nil_or_concat rest with rfl | ⟨rest, last, rfl⟩
    · exact absurd (List.singleton_inj.mp (List.append_inj' hinside rfl).2) hclosing
    · rw [List.concat_eq_append, ← List.cons_append, ← List.append_assoc] at hinside
      exact ⟨url, rest, congrArg _ (List.append_inj' hinside rfl).1, hne, hurl⟩

/-- A return at the end changes no link. -/
theorem links_concat_return (line : List Char) : links (line ++ ['\r']) = links line := by
  obtain ⟨cut, hcut, -, hlinks⟩ := (recognisedBy_linkAt? line).exists_cut_unique
  have hlonger : linkForm.Cuts (line ++ ['\r']) ⟨cut.spans, cut.rest ++ ['\r']⟩ := by
    refine hcut.concat ?_ (fun _ => opensLink_of_concat (by decide) (by decide)) ?_
    · rintro ⟨_, heq, -⟩
      exact absurd heq.symm (List.cons_ne_nil _ _)
    · exact fun span after hfits => { hfits with
        not_startsWithUrl := fun hurl hstarts => hfits.not_startsWithUrl hurl
          (startsWithUrl_of_concat (by decide) (by decide) hstarts) }
  rw [links, (recognisedBy_linkAt? _).allMatches_eq_contents hlonger, links, hlinks]
  rfl

end Line

/-! ### What is looked for in a line -/

namespace Check

/-- A return at the end changes no heading. -/
theorem markedLevel?_concat_return (line : List Char) :
    markedLevel? (line ++ ['\r']) = markedLevel? line := by
  have hprefix : ∀ cs level, (∃ rest, cs = List.replicate level '#' ++ ' ' :: rest) ↔
      List.replicate level '#' ++ [' '] <+: cs := fun cs level =>
    exists_congr fun rest => by rw [List.append_assoc, List.singleton_append, eq_comm]
  ext level
  have hreturn : '\r' ∉ List.replicate level '#' ++ [' '] := by simp
  rw [markedLevel?_eq_some_iff, markedLevel?_eq_some_iff, hprefix, hprefix,
    Text.prefix_append_cons_iff hreturn]

/-- A return at the end does not make metadata. -/
theorem isMetadataLine_concat_return (line : List Char) :
    isMetadataLine (line ++ ['\r']) = isMetadataLine line := by
  have hopenings : ∀ opening ∈ blockOpenings, '\r' ∉ opening.toList := by decide
  rw [isMetadataLine, isMetadataLine, Bool.eq_iff_iff, List.any_eq_true, List.any_eq_true]
  refine exists_congr fun opening => and_congr_right fun hmem => ?_
  rw [Text.isPrefixOf_concat (hopenings opening hmem)]

theorem allBlank_concat_return (line : List Char) :
    Text.allBlank (line ++ ['\r']) = Text.allBlank line := by
  rw [Bool.eq_iff_iff, Text.allBlank_append]
  exact and_iff_left (by decide)

theorem linkUses_concat_return (line : List Char) :
    linkUses (line ++ ['\r']) = linkUses line := by
  rw [linkUses, linkUses, Line.links_concat_return]

end Check

end Wireframe
