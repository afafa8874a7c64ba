/-!
# Inserting snippets into bytes

The same as `Snippet.insert`, step by step as a machine with words of 64 bits does it: an offset
that is too large becomes the size of the text, it is moved back byte by byte until it is at a
boundary between characters, and the result is put together from slices. Whatever can go wrong is a
fault: a sum or difference that does not fit into a word, and a slice that does not begin and end at
boundaries.
-/

namespace Wireframe.Snippet

/-- What can go wrong. -/
inductive Fault
  /-- A difference would be negative. -/
  | underflow
  /-- A sum does not fit into a word. -/
  | overflow
  /-- A slice does not begin and end at boundaries of the text, in order. -/
  | badSlice
  deriving DecidableEq, Repr

/-- The difference of two words. -/
def sub (a b : UInt64) : Except Fault UInt64 := if b ≤ a then .ok (a - b) else .error .underflow

/-- The sum of two words. -/
def add (a b : UInt64) : Except Fault UInt64 :=
  if a.toNat + b.toNat < UInt64.size then .ok (a + b) else .error .overflow

theorem toNat_of_sub_eq_ok {a b c : UInt64} (h : sub a b = .ok c) :
    c.toNat = a.toNat - b.toNat := by
  rw [sub] at h
  split at h
  · next hle =>
    cases h
    exact UInt64.toNat_sub_of_le _ _ hle
  · cases h

/-- Whether a byte is the first one of a character. The others begin with the bits `10`. -/
def startsCharacter (byte : UInt8) : Bool := byte < 0x80 || 0xC0 ≤ byte

/-- Whether an offset is at a boundary between characters. -/
def isBoundary (bytes : ByteArray) (offset : UInt64) : Bool :=
  if offset = 0 then true
  else if h : offset.toNat < bytes.size then startsCharacter bytes[offset.toNat]
  else offset.toNat == bytes.size

/-- Moves an offset back until it is at a boundary. -/
def backUp (bytes : ByteArray) (offset : UInt64) : Except Fault UInt64 :=
  if isBoundary bytes offset then .ok offset
  else
    match _h : sub offset 1 with
    | .error fault => .error fault
    | .ok lower => backUp bytes lower
termination_by offset.toNat
decreasing_by
  have hne : offset ≠ 0 := by
    rintro rfl
    simp_all [isBoundary]
  have hpos : offset.toNat ≠ 0 := fun hzero => hne (UInt64.toNat_inj.mp hzero)
  rw [toNat_of_sub_eq_ok _h]
  exact Nat.sub_lt (Nat.pos_of_ne_zero hpos) Nat.one_pos

/-- The bytes from one offset to another. -/
def slice (bytes : ByteArray) (start stop : UInt64) : Except Fault ByteArray :=
  if start ≤ stop ∧ isBoundary bytes start ∧ isBoundary bytes stop then
    .ok (bytes.extract start.toNat stop.toNat)
  else .error .badSlice

/-- A text in memory, where nothing takes up more bytes than the largest signed word. -/
structure Held where
  text : String
  size_lt : text.utf8ByteSize < UInt64.size / 2

namespace Held

/-- The bytes of a text. -/
def bytes (held : Held) : ByteArray := held.text.toUTF8

/-- The number of bytes of a text. -/
def size (held : Held) : UInt64 := .ofNat held.text.utf8ByteSize

end Held

/-- What an insertion gives. -/
structure Inserted where
  /-- The number of bytes that room is made for. Whether there is so much memory is not asked: it is
  what the new text takes up (`splice_eq_ok`). -/
  room : UInt64
  /-- The bytes of the new text. -/
  bytes : ByteArray
  /-- The offset right after the snippet. -/
  cursor : UInt64

/-- The last boundary of a text that is not behind an offset. -/
def clamp (text : Held) (offset : UInt64) : Except Fault UInt64 :=
  backUp text.bytes (min offset text.size)

/-- Puts a snippet in place of a selection. -/
def splice (text : Held) (start stop : UInt64) (snippet : Held) : Except Fault Inserted := do
  let start ← clamp text start
  let stop := max (← clamp text stop) start
  let room ← add (← sub text.size (← sub stop start)) snippet.size
  let before ← slice text.bytes 0 start
  let after ← slice text.bytes stop text.size
  let cursor ← add start snippet.size
  return ⟨room, before ++ snippet.bytes ++ after, cursor⟩

end Wireframe.Snippet
