import Wireframe.Proofs.Document.Sections
import Wireframe.Proofs.Text.Cuts

/-!
# The buttons and the image of a line

Buttons are written `[[label]]` and images `<description>`. Both are labels between two marks, and
both are read in the same way: a label starts at the first opening mark that has a closing one
behind it, with at least one character in between, and it is the shortest of those that may stand
there (`labelForm`). So a label may begin with characters of the opening mark, as in `[[[a]]`, or
with the closing one, as in `<>>`.

A line is cut into buttons and gaps in exactly one way, and at most the first image of a line counts
(`labels_cut`). A label never goes beyond the end of a line; as a line holds no line feed, this does
not show.
-/

namespace Wireframe.Line

/-! ### Labels -/

/-- Whether a label may stand in front of a closing mark and the rest of a line: no shorter one, the
empty one aside, has a closing mark behind it. -/
def FitsLabel (closing label after : List Char) : Prop :=
  label ≠ [] ∧ ∀ other rest, other ≠ [] → label ++ closing ++ after = other ++ closing ++ rest →
    label.length ≤ other.length

/-- Labels between two marks as spans of a line. -/
def labelForm (opening closing : List Char) : Text.SpanForm (List Char) where
  written label := opening ++ label ++ closing
  Fits := FitsLabel closing
  Opens cs := ∃ label after, cs = opening ++ label ++ closing ++ after ∧ label ≠ []

/-- Buttons as spans of a line. -/
def buttonForm : Text.SpanForm (List Char) := labelForm ['[', '['] [']', ']']

/-- Images as spans of a line. -/
def imageForm : Text.SpanForm (List Char) := labelForm ['<'] ['>']

variable {opening closing cs : List Char}

/-! ### The shortest label -/

/-- What is found in front of a closing mark does stand there. -/
theorem append_of_upTo? {body : List Char} (h : upTo? closing cs = some body) :
    ∃ after, cs = body ++ closing ++ after := by
  fun_induction upTo? closing cs generalizing body with
  | case1 => exact absurd h.symm (Option.some_ne_none _)
  | case2 c cs hprefix =>
    obtain rfl := Option.some_inj.mp h
    obtain ⟨after, heq⟩ := List.isPrefixOf_iff_prefix.mp hprefix
    exact ⟨after, heq.symm⟩
  | case3 => exact absurd h.symm (Option.some_ne_none _)
  | case4 c cs _ _ ih =>
    obtain ⟨tail, htail, rfl⟩ := Option.map_eq_some_iff.mp h
    obtain ⟨after, rfl⟩ := ih htail
    exact ⟨after, rfl⟩

/-- If a closing mark stands somewhere, something in front of one is found, and nothing shorter
stands in front of one. -/
theorem exists_upTo?_le (hclosing : closing ≠ []) (hnewline : '\n' ∉ cs) {other rest : List Char}
    (heq : cs = other ++ closing ++ rest) :
    ∃ body, upTo? closing cs = some body ∧ body.length ≤ other.length := by
  induction other generalizing cs with
  | nil =>
    obtain ⟨c, mark, rfl⟩ := List.exists_cons_of_ne_nil hclosing
    have hprefix : (c :: mark).isPrefixOf (c :: (mark ++ rest)) = true :=
      List.isPrefixOf_iff_prefix.mpr (List.prefix_append (c :: mark) rest)
    refine ⟨[], ?_, Nat.le_refl _⟩
    rw [heq, List.nil_append, List.cons_append, upTo?, if_pos hprefix]
  | cons c other ih =>
    subst heq
    rw [List.cons_append, List.cons_append, List.mem_cons, not_or] at hnewline
    obtain ⟨body, hbody, hle⟩ := ih hnewline.2 rfl
    rw [List.cons_append, List.cons_append, upTo?, if_neg (Ne.symm hnewline.1), hbody]
    split
    · exact ⟨[], rfl, Nat.zero_le _⟩
    · exact ⟨c :: body, rfl, Nat.succ_le_succ hle⟩

theorem label?_cons {c : Char} (hc : '\n' ≠ c) :
    label? closing (c :: cs) = (upTo? closing cs).map (c :: ·) := if_neg hc.symm

theorem label?_eq_some_iff (hclosing : closing ≠ []) (hnewline : '\n' ∉ cs) {label : List Char} :
    label? closing cs = some label ↔
      ∃ after, cs = label ++ closing ++ after ∧ FitsLabel closing label after := by
  cases cs with
  | nil => simp [label?, hclosing]
  | cons c cs =>
    rw [List.mem_cons, not_or] at hnewline
    rw [label?_cons hnewline.1]
    constructor
    · intro h
      obtain ⟨body, hbody, rfl⟩ := Option.map_eq_some_iff.mp h
      obtain ⟨after, heq⟩ := append_of_upTo? hbody
      refine ⟨after, congrArg (c :: ·) heq, List.cons_ne_nil _ _, fun other rest hne hother => ?_⟩
      -- another label starts with the same character, and the search is for what follows that
      obtain ⟨d, tail, rfl⟩ := List.exists_cons_of_ne_nil hne
      have htail : cs = tail ++ closing ++ rest := heq.trans (List.cons.inj hother).2
      obtain ⟨found, hfound, hle⟩ := exists_upTo?_le hclosing hnewline.2 htail
      obtain rfl := Option.some_inj.mp (hbody.symm.trans hfound)
      exact Nat.succ_le_succ hle
    · rintro ⟨after, heq, hne, hshortest⟩
      obtain ⟨d, tail, rfl⟩ := List.exists_cons_of_ne_nil hne
      obtain rfl : c = d := (List.cons.inj heq).1
      have htail : cs = tail ++ closing ++ after := (List.cons.inj heq).2
      obtain ⟨body, hbody, hle⟩ := exists_upTo?_le hclosing hnewline.2 htail
      obtain ⟨rest, hrest⟩ := append_of_upTo? hbody
      have hlength := hshortest (c :: body) rest (List.cons_ne_nil _ _)
        (congrArg (c :: ·) (htail.symm.trans hrest))
      -- two labels of one length are the same
      have hsame : body = tail := by
        rw [htail, List.append_assoc, List.append_assoc] at hrest
        exact (List.append_inj hrest (Nat.le_antisymm (Nat.le_of_succ_le_succ hlength) hle)).1.symm
      rw [hbody, hsame]
      rfl

theorem label?_eq_none_iff (hclosing : closing ≠ []) (hnewline : '\n' ∉ cs) :
    label? closing cs = none ↔ ¬ ∃ label after, cs = label ++ closing ++ after ∧ label ≠ [] := by
  constructor
  · rintro h ⟨label, after, heq, hne⟩
    obtain ⟨c, tail, rfl⟩ := List.exists_cons_of_ne_nil hne
    rw [heq, List.cons_append, List.cons_append, List.mem_cons, not_or] at hnewline
    obtain ⟨body, hbody, -⟩ := exists_upTo?_le hclosing hnewline.2 rfl
    rw [heq, List.cons_append, List.cons_append, label?_cons hnewline.1, hbody] at h
    exact Option.some_ne_none _ h
  · intro h
    rw [Option.eq_none_iff_forall_ne_some]
    intro label hlabel
    obtain ⟨after, heq, hne, -⟩ := (label?_eq_some_iff hclosing hnewline).mp hlabel
    exact h ⟨label, after, heq, hne⟩

/-! ### Labels at the head of a list -/

/-- A recogniser that takes the opening mark and goes on to the shortest label recognises labels,
where there are no line feeds. -/
theorem recognisedBy_label {find? : List Char → Option (List Char × ℕ)} (hclosing : closing ≠ [])
    (hopen : ∀ cs, find? (opening ++ cs) =
      (label? closing cs).map fun label => (label, (opening ++ label ++ closing).length))
    (hnone : ∀ cs, ¬ opening <+: cs → find? cs = none) {line : List Char} (hline : '\n' ∉ line) :
    (labelForm opening closing).RecognisedBy find? line where
  written_ne_nil label := List.append_ne_nil_of_right_ne_nil _ hclosing
  eq_some_iff tail htail label width := by
    have htail : '\n' ∉ tail := fun hmem => hline (htail.subset hmem)
    -- the label is looked for behind the opening only
    by_cases hprefix : opening <+: tail
    · obtain ⟨cs, rfl⟩ := hprefix
      have hcs : '\n' ∉ cs := fun hmem => htail (List.mem_append_right _ hmem)
      rw [hopen, Option.map_eq_some_iff]
      constructor
      · rintro ⟨found, hfound, heq⟩
        obtain ⟨rfl, rfl⟩ := Prod.mk.inj heq
        obtain ⟨after, rfl, hfits⟩ := (label?_eq_some_iff hclosing hcs).mp hfound
        exact ⟨after, by simp [labelForm], hfits, rfl⟩
      · rintro ⟨after, heq, hfits, rfl⟩
        have hlabel : cs = label ++ closing ++ after := by simpa [labelForm] using heq
        exact ⟨label, (label?_eq_some_iff hclosing hcs).mpr ⟨after, hlabel, hfits⟩, rfl⟩
    · rw [hnone tail hprefix]
      refine iff_of_false (Option.some_ne_none _).symm ?_
      rintro ⟨after, rfl, -⟩
      exact hprefix (by simp [labelForm])
  eq_none_iff tail htail := by
    have htail : '\n' ∉ tail := fun hmem => hline (htail.subset hmem)
    by_cases hprefix : opening <+: tail
    · obtain ⟨cs, rfl⟩ := hprefix
      have hcs : '\n' ∉ cs := fun hmem => htail (List.mem_append_right _ hmem)
      rw [hopen, Option.map_eq_none_iff, label?_eq_none_iff hclosing hcs]
      simp [labelForm]
    · refine iff_of_true (hnone tail hprefix) ?_
      rintro ⟨label, after, rfl, -⟩
      exact hprefix (by simp)

theorem recognisedBy_buttonAt? {line : List Char} (h : '\n' ∉ line) :
    buttonForm.RecognisedBy buttonAt? line := by
  refine recognisedBy_label (by decide) (fun cs => ?_) (fun cs hcs => ?_) h
  · simp [buttonAt?]
  · unfold buttonAt?
    split
    · exact absurd (List.prefix_append ['[', '['] _) hcs
    · rfl

theorem recognisedBy_imageAt? {line : List Char} (h : '\n' ∉ line) :
    imageForm.RecognisedBy imageAt? line := by
  refine recognisedBy_label (by decide) (fun cs => ?_) (fun cs hcs => ?_) h
  · simp [imageAt?]
  · unfold imageAt?
    split
    · exact absurd (List.prefix_append ['<'] _) hcs
    · rfl

/-! ### The labels of a line -/

/-- **The buttons of a line are those of its one cut**, and its image is the first one: the line
stands for them if there are any. -/
theorem labels_cut {line : List Char} (h : '\n' ∉ line) :
    (∃ cut, buttonForm.Cuts line cut ∧ (∀ other, buttonForm.Cuts line other → other = cut) ∧
      Rule.buttons.meaning? line =
        if cut.spans = [] then none
        else some (.elements (cut.contents.map fun label => .button (String.ofList label)))) ∧
    (∀ meaning, Rule.image.meaning? line = some meaning ↔
      ∃ description, imageForm.First line description ∧
        meaning = .elements [.image (String.ofList description)]) ∧
    (Rule.image.meaning? line = none ↔ ∀ tail, tail <:+ line → ¬ imageForm.Opens tail) := by
  have himage := recognisedBy_imageAt? h
  refine ⟨?_, fun meaning => ?_, ?_⟩
  · obtain ⟨cut, hcut, hunique, hbuttons⟩ := (recognisedBy_buttonAt? h).exists_cut_unique
    refine ⟨cut, hcut, hunique, ?_⟩
    rw [Rule.meaning?, buttons, hbuttons, someElements_eq_ite]
    simp only [List.map_eq_nil_iff, Text.Cut.contents_eq_nil_iff]
  · rw [Rule.meaning?, images, Option.map_eq_some_iff]
    simp only [himage.head?_allMatches_eq_some_iff, eq_comm]
  · rw [Rule.meaning?, images, Option.map_eq_none_iff, List.head?_eq_none_iff,
      himage.allMatches_eq_nil_iff]

/-- A bracket too many in front of a label, labels made of closing marks, and an image in front of
which no other one starts. -/
theorem labels_cut_brackets :
    '\n' ∉ "[[[a]]] [[]]]] <>>".toList ∧
      (∃ cut, buttonForm.Cuts "[[[a]]] [[]]]] <>>".toList cut ∧
        cut.contents = ["[a".toList, "]".toList]) ∧
      imageForm.First "[[[a]]] [[]]]] <>>".toList ">".toList := by
  have hline : '\n' ∉ "[[[a]]] [[]]]] <>>".toList := by decide
  obtain ⟨⟨cut, hcut, -, hbuttons⟩, himage, -⟩ := labels_cut hline
  refine ⟨hline, ⟨cut, hcut, ?_⟩, ?_⟩
  · have hlabels : Rule.buttons.meaning? "[[[a]]] [[]]]] <>>".toList =
        some (.elements [.button "[a", .button "]"]) := by rfl
    rw [hlabels] at hbuttons
    obtain ⟨-, heq⟩ := Option.ite_none_left_eq_some.mp hbuttons.symm
    have hinjective : Function.Injective fun label => Element.button (String.ofList label) :=
      fun _ _ h => String.ofList_injective (Element.button.inj h)
    exact List.map_injective_iff.mpr hinjective (Meaning.elements.inj (Option.some_inj.mp heq))
  · obtain ⟨description, hfirst, heq⟩ := (himage (.elements [.image ">"])).mp (by rfl)
    have hdescription : ">" = String.ofList description := by simpa using heq
    have hchars : ">".toList = description :=
      (congrArg String.toList hdescription).trans String.toList_ofList
    rwa [hchars]

end Wireframe.Line
