/-!
# Inserting snippets

A snippet takes the place of a selection in a text. The selection is given by two byte offsets into
the text; each is moved back to the nearest boundary between characters that it does not exceed, and
a selection that would end before its start is empty.
-/

namespace Wireframe.Snippet

/-- The number of bytes that characters take up. -/
def byteLength : List Char → Nat
  | [] => 0
  | c :: cs => c.utf8Size + byteLength cs

/-- The longest beginning of a text that takes up at most `limit` bytes. -/
def within (limit : Nat) : List Char → List Char
  | [] => []
  | c :: cs => if c.utf8Size ≤ limit then c :: within (limit - c.utf8Size) cs else []

/-- The text with the snippet in place of the selection, and the byte offset right after it. -/
def insert (text : String) (start stop : Nat) (snippet : String) : String × Nat :=
  let cs := text.toList
  let before := within start cs
  let selected := max before.length (within stop cs).length
  (String.ofList (before ++ snippet.toList ++ cs.drop selected),
    byteLength before + byteLength snippet.toList)

/-! ### Byte lengths -/

@[simp]
theorem byteLength_nil : byteLength [] = 0 := rfl

@[simp]
theorem byteLength_cons (c : Char) (cs : List Char) :
    byteLength (c :: cs) = c.utf8Size + byteLength cs := rfl

@[simp]
theorem byteLength_append (cs ds : List Char) :
    byteLength (cs ++ ds) = byteLength cs + byteLength ds := by
  induction cs with
  | nil => simp
  | cons c cs ih => simp [ih, Nat.add_assoc]

theorem byteLength_ofList (cs : List Char) :
    byteLength cs = (String.ofList cs).utf8ByteSize := by
  induction cs with
  | nil => simp [String.ofList_nil]
  | cons c cs ih =>
    have hsplit : String.ofList (c :: cs) = String.ofList [c] ++ String.ofList cs := by
      rw [← String.ofList_append]
      rfl
    have hone : (String.ofList [c]).utf8ByteSize = c.utf8Size := by
      rw [← String.singleton_eq_ofList]
      exact String.utf8ByteSize_singleton
    rw [byteLength_cons, ih, hsplit, String.utf8ByteSize_append, hone]

/-- What is counted are the bytes of the text. -/
theorem byteLength_toList (text : String) : byteLength text.toList = text.utf8ByteSize := by
  rw [byteLength_ofList, String.ofList_toList]

/-! ### Beginnings within a limit -/

/-- What is within a limit is not longer than the limit. -/
theorem byteLength_within_le (limit : Nat) (cs : List Char) :
    byteLength (within limit cs) ≤ limit := by
  induction cs generalizing limit with
  | nil => simp [within]
  | cons c cs ih =>
    rw [within]
    split
    · next h =>
      have := ih (limit - c.utf8Size)
      simp only [byteLength]
      omega
    · simp [byteLength]

/-- What is within a limit is the beginning of the text. -/
theorem within_prefix (limit : Nat) (cs : List Char) : within limit cs <+: cs := by
  induction cs generalizing limit with
  | nil => exact List.prefix_refl _
  | cons c cs ih =>
    rw [within]
    split
    · exact List.cons_prefix_cons.2 ⟨rfl, ih _⟩
    · exact List.nil_prefix

end Wireframe.Snippet
