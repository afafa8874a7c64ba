import Mathlib.Data.List.Infix
import Wireframe.Snippet
import Wireframe.Snippet.Splice

/-!
# Insertions go through

Putting a snippet in place of a selection never fails, whatever the two offsets are
(`Snippet.splice_eq_ok`): no sum or difference leaves the words, no slice begins or ends inside a
character, and moving an offset back comes to an end. The offsets cut the text at the last
boundaries that are not behind them (`Cut`). The result has the snippet between the outer parts and
the cursor right behind it, as `Snippet.insert` says of characters.

Whether there is a boundary is seen from a single byte, because in a text no other byte looks like
the first one of a character (`isBoundary_iff`). An offset is moved back one byte at a time, and
that is the induction: where there is no boundary, the longest beginning of the text within an
offset is the one within the offset before (`LongestWithin.succ`, `backUp_eq_ok`).
-/

namespace Wireframe.Snippet

open String.Pos (Raw)

/-! ### Words -/

theorem toNat_ofNat {n : ℕ} (h : n < UInt64.size) : (UInt64.ofNat n).toNat = n :=
  UInt64.toNat_ofNat_of_lt' h

theorem sub_ofNat {m n : ℕ} (hle : n ≤ m) (hm : m < UInt64.size) :
    sub (.ofNat m) (.ofNat n) = .ok (.ofNat (m - n)) := by
  rw [sub, if_pos ((UInt64.ofNat_le_iff_le (hle.trans_lt hm) hm).mpr hle), ← UInt64.ofNat_sub hle]

theorem add_ofNat {m n : ℕ} (h : m + n < UInt64.size) :
    add (.ofNat m) (.ofNat n) = .ok (.ofNat (m + n)) := by
  rw [add, toNat_ofNat (by omega), toNat_ofNat (by omega), if_pos h, UInt64.ofNat_add]

theorem min_ofNat {m n : ℕ} (hm : m < UInt64.size) (hn : n < UInt64.size) :
    min (UInt64.ofNat m) (.ofNat n) = .ofNat (min m n) := by
  rw [min_def, apply_ite UInt64.ofNat]
  exact if_congr (UInt64.ofNat_le_iff_le hm hn) rfl rfl

theorem max_ofNat {m n : ℕ} (hm : m < UInt64.size) (hn : n < UInt64.size) :
    max (UInt64.ofNat m) (.ofNat n) = .ofNat (max m n) := by
  rw [max_def, apply_ite UInt64.ofNat]
  exact if_congr (UInt64.ofNat_le_iff_le hm hn) rfl rfl

/-! ### Boundaries -/

/-- The greatest bytes are not used in the encoding of characters. -/
theorem toNat_lt_of_mem_utf8EncodeChar {c : Char} {byte : UInt8}
    (h : byte ∈ String.utf8EncodeChar c) : byte.toNat < 0xF8 := by
  simp only [String.utf8EncodeChar] at h
  split_ifs at h <;> simp only [List.mem_cons, List.not_mem_nil, or_false] at h <;>
    rcases h with rfl | rfl | rfl | rfl <;> rw [UInt8.toNat_ofNat'] <;> omega

/-- Among the bytes that are used, those that start a character are told by their first two bits. -/
theorem startsCharacter_iff {byte : UInt8} (h : byte.toNat < 0xF8) :
    startsCharacter byte = true ↔ byte.IsUTF8FirstByte := by
  have hbytes : ∀ n < 0xF8, startsCharacter (.ofNat n) = true ↔
      (UInt8.ofNat n).IsUTF8FirstByte := by decide +kernel
  rw [← UInt8.ofNat_toNat (x := byte)]
  exact hbytes _ h

/-- No byte of a text begins with five ones. -/
theorem toNat_toUTF8_lt {text : String} {n : ℕ} (h : n < text.toUTF8.size) :
    text.toUTF8[n].toNat < 0xF8 := by
  obtain ⟨cs, rfl⟩ := text.exists_eq_ofList
  simp only [String.toUTF8_eq_toByteArray, String.toByteArray_ofList, List.utf8Encode,
    List.getElem_toByteArray]
  obtain ⟨c, -, hc⟩ := List.mem_flatMap.mp
    (List.getElem_mem (l := cs.flatMap String.utf8EncodeChar) _)
  exact toNat_lt_of_mem_utf8EncodeChar hc

/-- There is a boundary at an offset exactly if a beginning of the text ends there. -/
theorem isBoundary_iff {text : String} {n : ℕ} (hn : n < UInt64.size) :
    isBoundary text.toUTF8 (.ofNat n) = true ↔ (Raw.mk n).IsValid text := by
  have hword : (UInt64.ofNat n).toNat = n := toNat_ofNat hn
  simp only [isBoundary, ← UInt64.toNat_inj, hword, UInt64.toNat_zero]
  split
  · next hzero =>
    subst hzero
    exact iff_of_true rfl Raw.isValid_zero
  · rw [Raw.isValid_iff_isUTF8FirstByte]
    split
    · next hlt =>
      have hbyte := startsCharacter_iff (toNat_toUTF8_lt hlt)
      have hin : Raw.mk n < text.rawEndPos := hlt
      have hne : Raw.mk n ≠ text.rawEndPos := fun hend => hlt.ne (congrArg Raw.byteIdx hend)
      rw [hbyte, exists_prop_of_true hin, or_iff_right hne]
      rfl
    · next hge =>
      have hout : ¬ Raw.mk n < text.rawEndPos := hge
      rw [beq_iff_eq, or_iff_left (exists_prop_of_false hout), Raw.ext_iff]
      rfl

/-! ### Beginnings of texts -/

/-- What a text begins with is no larger than the text. -/
theorem size_le_of_starts {part other : String} (h : part.toList <+: other.toList) :
    part.utf8ByteSize ≤ other.utf8ByteSize := by
  obtain ⟨rest, hrest⟩ := h
  rw [← byteLength_toList, ← byteLength_toList, ← hrest, byteLength_append]
  exact Nat.le_add_right _ _

/-- Of two beginnings of a text, the one that takes up fewer bytes is a beginning of the other. -/
theorem prefix_of_size_le {text part other : String} (hpart : part.toList <+: text.toList)
    (hother : other.toList <+: text.toList) (h : part.utf8ByteSize ≤ other.utf8ByteSize) :
    part.toList <+: other.toList := by
  rcases List.prefix_or_prefix_of_prefix hpart hother with hprefix | ⟨rest, hrest⟩
  · exact hprefix
  · -- there is nothing in the longer text that the shorter one does not have
    rw [← byteLength_toList, ← byteLength_toList, ← hrest, byteLength_append] at h
    cases rest with
    | nil => rw [← hrest, List.append_nil]
    | cons c rest =>
      have hpos := c.utf8Size_pos
      rw [byteLength_cons] at h
      omega

/-- Whether a text is the longest beginning of another one that takes up at most `limit` bytes. -/
structure LongestWithin (limit : ℕ) (text part : String) : Prop where
  starts : part.toList <+: text.toList
  size_le : part.utf8ByteSize ≤ limit
  longest : ∀ other : String, other.toList <+: text.toList → other.utf8ByteSize ≤ limit →
    other.utf8ByteSize ≤ part.utf8ByteSize

namespace LongestWithin

variable {limit : ℕ} {text part other : String}

/-- There is one longest beginning within a limit. -/
theorem unique (h : LongestWithin limit text part) (h' : LongestWithin limit text other) :
    part = other := by
  have hle := prefix_of_size_le h.starts h'.starts (h'.longest part h.starts h.size_le)
  have hge := prefix_of_size_le h'.starts h.starts (h.longest other h'.starts h'.size_le)
  exact String.toList_inj.mp (hle.eq_of_length (le_antisymm hle.length_le hge.length_le))

/-- A limit behind the end of the text is as good as the end. -/
theorem of_min (h : LongestWithin (min limit text.utf8ByteSize) text part) :
    LongestWithin limit text part where
  starts := h.starts
  size_le := h.size_le.trans (min_le_left _ _)
  longest other hother hle := h.longest other hother (le_min hle (size_le_of_starts hother))

/-- A limit at which no beginning ends is as good as the one before. -/
theorem succ (h : LongestWithin limit text part)
    (hne : ∀ other : String, other.toList <+: text.toList → other.utf8ByteSize ≠ limit + 1) :
    LongestWithin (limit + 1) text part where
  starts := h.starts
  size_le := h.size_le.trans (Nat.le_succ _)
  longest other hother hle :=
    h.longest other hother (Nat.le_of_lt_succ (hle.lt_of_ne (hne other hother)))

end LongestWithin

/-- A beginning that is within the limit is part of the longest one. -/
theorem prefix_within {limit : ℕ} {part cs : List Char} (h : part <+: cs)
    (hle : byteLength part ≤ limit) : part <+: within limit cs := by
  induction part generalizing limit cs with
  | nil => exact List.nil_prefix
  | cons c part ih =>
    obtain ⟨rest, rfl⟩ := h
    rw [byteLength_cons] at hle
    rw [List.cons_append, within, if_pos (by omega)]
    exact List.cons_prefix_cons.mpr ⟨rfl, ih (List.prefix_append _ _) (by omega)⟩

/-- The beginnings that `Snippet.insert` looks for are the longest. -/
theorem longestWithin_within (limit : ℕ) (text : String) :
    LongestWithin limit text (.ofList (within limit text.toList)) where
  starts := by
    rw [String.toList_ofList]
    exact within_prefix limit text.toList
  size_le := by
    rw [← byteLength_ofList]
    exact byteLength_within_le limit text.toList
  longest other hother hle := by
    refine size_le_of_starts ?_
    rw [String.toList_ofList]
    exact prefix_within hother (by rwa [byteLength_toList])

/-! ### Offsets moved back -/

/-- There is a boundary wherever a beginning of the text ends. -/
theorem isBoundary_iff_exists_part (text : String) {n : ℕ} (hn : n < UInt64.size) :
    isBoundary text.toUTF8 (.ofNat n) = true ↔
      ∃ part : String, part.toList <+: text.toList ∧ part.utf8ByteSize = n := by
  rw [isBoundary_iff hn, Raw.isValid_iff_exists_append]
  constructor
  · rintro ⟨part, rest, rfl, hend⟩
    refine ⟨part, ?_, (congrArg Raw.byteIdx hend).symm⟩
    rw [String.toList_append]
    exact List.prefix_append _ _
  · rintro ⟨part, ⟨rest, hrest⟩, rfl⟩
    refine ⟨part, .ofList rest, ?_, rfl⟩
    rw [← String.toList_inj, String.toList_append, String.toList_ofList, hrest]

/-- On a boundary there is no need to back up. -/
theorem backUp_of_isBoundary {text : String} {n : ℕ} (hn : n < UInt64.size)
    (h : isBoundary text.toUTF8 (.ofNat n) = true) :
    ∃ part, LongestWithin n text part ∧
      backUp text.toUTF8 (.ofNat n) = .ok (.ofNat part.utf8ByteSize) := by
  obtain ⟨part, hpart, hsize⟩ := (isBoundary_iff_exists_part text hn).mp h
  refine ⟨part, ⟨hpart, hsize.le, fun other _ hother => hother.trans hsize.ge⟩, ?_⟩
  rw [backUp, if_pos h, hsize]

/-- An offset is moved back to where the longest beginning within it ends. -/
theorem backUp_eq_ok (text : String) {n : ℕ} (hn : n < UInt64.size) :
    ∃ part, LongestWithin n text part ∧
      backUp text.toUTF8 (.ofNat n) = .ok (.ofNat part.utf8ByteSize) := by
  induction n with
  | zero => exact backUp_of_isBoundary hn rfl
  | succ n ih =>
    by_cases hboundary : isBoundary text.toUTF8 (.ofNat (n + 1)) = true
    · exact backUp_of_isBoundary hn hboundary
    · obtain ⟨part, hlongest, hback⟩ := ih (Nat.lt_of_succ_lt hn)
      refine ⟨part, hlongest.succ fun other hother hsize => hboundary ?_, ?_⟩
      · exact (isBoundary_iff_exists_part text hn).mpr ⟨other, hother, hsize⟩
      · have hlower : sub (.ofNat (n + 1)) 1 = .ok (.ofNat n) :=
          sub_ofNat (Nat.le_add_left 1 n) hn
        rw [backUp, if_neg hboundary]
        split
        · next hfault => cases hfault.symm.trans hlower
        · next hok =>
          cases hok.symm.trans hlower
          exact hback

/-- The bytes between two boundaries are cut out. -/
theorem slice_eq_ok {text front middle back : String} (htext : text = front ++ middle ++ back)
    (hsize : text.utf8ByteSize < UInt64.size) :
    slice text.toUTF8 (.ofNat front.utf8ByteSize)
      (.ofNat (front.utf8ByteSize + middle.utf8ByteSize)) = .ok middle.toUTF8 := by
  subst htext
  rw [String.utf8ByteSize_append, String.utf8ByteSize_append] at hsize
  have hfront : front.utf8ByteSize < UInt64.size := by omega
  have hwhole : front.utf8ByteSize + middle.utf8ByteSize < UInt64.size := by omega
  have hle := (UInt64.ofNat_le_iff_le hfront hwhole).mpr (Nat.le_add_right _ _)
  have hstart := (isBoundary_iff_exists_part (front ++ middle ++ back) hfront).mpr
    ⟨front, by simp [List.append_assoc], rfl⟩
  have hstop := (isBoundary_iff_exists_part (front ++ middle ++ back) hwhole).mpr
    ⟨front ++ middle, by simp, String.utf8ByteSize_append ..⟩
  have hinner := ByteArray.extract_append_size_add (a := front.toByteArray)
    (b := middle.toByteArray ++ back.toByteArray) (i := 0) (j := middle.toByteArray.size)
  rw [ByteArray.extract_append_eq_left rfl, Nat.add_zero] at hinner
  rw [slice, if_pos ⟨hle, hstart, hstop⟩, toNat_ofNat hfront, toNat_ofNat hwhole]
  simpa only [String.toUTF8_eq_toByteArray, String.toByteArray_append, ByteArray.append_assoc,
    ← String.size_toByteArray] using congrArg Except.ok hinner

/-! ### Cuts -/

/-- The longer one of two texts. -/
def longer (text other : String) : String :=
  if text.utf8ByteSize < other.utf8ByteSize then other else text

/-- Of two beginnings of a text, the one that takes up more bytes has more characters. -/
theorem length_longer {text part other : String} (hpart : part.toList <+: text.toList)
    (hother : other.toList <+: text.toList) :
    (longer part other).toList.length = max part.toList.length other.toList.length := by
  rw [longer]
  split
  · next hlt => exact (max_eq_right (prefix_of_size_le hpart hother hlt.le).length_le).symm
  · next hge =>
    exact (max_eq_left (prefix_of_size_le hother hpart (not_lt.mp hge)).length_le).symm

/-- How two offsets cut a text. In front of the selection is the longest beginning within the first
offset; up to its end is the longest beginning within the second one, unless that is the shorter of
the two and the selection is empty. -/
structure Cut (text : String) (start stop : ℕ) where
  before : String
  selected : String
  after : String
  /-- The longest beginning within the second offset. -/
  upTo : String
  eq_append : text = before ++ selected ++ after
  longestWithin_start : LongestWithin start text before
  longestWithin_stop : LongestWithin stop text upTo
  before_selected : before ++ selected = longer before upTo

/-- The text with a snippet in place of the selection. -/
def Cut.filled {text : String} {start stop : ℕ} (cut : Cut text start stop) (snippet : String) :
    String :=
  cut.before ++ snippet ++ cut.after

/-- Two longest beginnings make a cut. -/
theorem exists_cut {text before upTo : String} {start stop : ℕ}
    (hstart : LongestWithin start text before) (hstop : LongestWithin stop text upTo) :
    ∃ cut : Cut text start stop, cut.before = before ∧ cut.upTo = upTo := by
  have hwhole : before.toList <+: (longer before upTo).toList ∧
      (longer before upTo).toList <+: text.toList := by
    rw [longer]
    split
    · next hlt => exact ⟨prefix_of_size_le hstart.starts hstop.starts hlt.le, hstop.starts⟩
    · exact ⟨List.prefix_rfl, hstart.starts⟩
  obtain ⟨⟨selected, hselected⟩, ⟨after, hafter⟩⟩ := hwhole
  have hlonger : before ++ .ofList selected = longer before upTo := by
    rw [← String.toList_inj, String.toList_append, String.toList_ofList, hselected]
  refine ⟨⟨before, .ofList selected, .ofList after, upTo, ?_, hstart, hstop, hlonger⟩, rfl, rfl⟩
  rw [hlonger, ← String.toList_inj, String.toList_append, String.toList_ofList, hafter]

namespace Cut

variable {text : String} {start stop : ℕ}

/-- What `Snippet.insert` gives is the text with the snippet in place of the selection. -/
theorem insert_eq (cut : Cut text start stop) (snippet : String) :
    insert text start stop snippet =
      (cut.filled snippet, cut.before.utf8ByteSize + snippet.utf8ByteSize) := by
  have hbefore : within start text.toList = cut.before.toList := by
    rw [← (longestWithin_within start text).unique cut.longestWithin_start, String.toList_ofList]
  have hupTo : within stop text.toList = cut.upTo.toList := by
    rw [← (longestWithin_within stop text).unique cut.longestWithin_stop, String.toList_ofList]
  have hlength := length_longer cut.longestWithin_start.starts cut.longestWithin_stop.starts
  have hafter : text.toList.drop (max cut.before.toList.length cut.upTo.toList.length) =
      cut.after.toList := by
    have htext : text.toList = (cut.before ++ cut.selected).toList ++ cut.after.toList := by
      rw [← String.toList_append, ← cut.eq_append]
    rw [← hlength, ← cut.before_selected, htext, List.drop_left]
  simp only [insert, hbefore, hupTo, hafter, byteLength_toList, Cut.filled]
  rw [← String.toList_append, ← String.toList_append, String.ofList_toList]

theorem size_text (cut : Cut text start stop) : text.utf8ByteSize =
    cut.before.utf8ByteSize + cut.selected.utf8ByteSize + cut.after.utf8ByteSize := by
  rw [← String.utf8ByteSize_append, ← String.utf8ByteSize_append, ← cut.eq_append]

theorem size_filled (cut : Cut text start stop) (snippet : String) :
    (cut.filled snippet).utf8ByteSize =
      cut.before.utf8ByteSize + snippet.utf8ByteSize + cut.after.utf8ByteSize := by
  rw [filled, String.utf8ByteSize_append, String.utf8ByteSize_append]

/-- The selection ends at the greater one of the two boundaries. -/
theorem max_size (cut : Cut text start stop) :
    max cut.upTo.utf8ByteSize cut.before.utf8ByteSize =
      cut.before.utf8ByteSize + cut.selected.utf8ByteSize := by
  rw [← String.utf8ByteSize_append, cut.before_selected, longer]
  split <;> omega

/-- The slice before the selection is the part before it. -/
theorem slice_before (cut : Cut text start stop) (hsize : text.utf8ByteSize < UInt64.size) :
    slice text.toUTF8 0 (.ofNat cut.before.utf8ByteSize) = .ok cut.before.toUTF8 := by
  have heq : text = "" ++ cut.before ++ (cut.selected ++ cut.after) := by
    rw [String.empty_append, ← String.append_assoc, ← cut.eq_append]
  have hslice := slice_eq_ok heq hsize
  rwa [String.utf8ByteSize_empty, Nat.zero_add] at hslice

/-- The slice behind the selection is the part behind it. -/
theorem slice_after (cut : Cut text start stop) (hsize : text.utf8ByteSize < UInt64.size) :
    slice text.toUTF8 (.ofNat (cut.before.utf8ByteSize + cut.selected.utf8ByteSize))
      (.ofNat text.utf8ByteSize) = .ok cut.after.toUTF8 := by
  have heq : text = cut.before ++ cut.selected ++ cut.after ++ "" := by
    rw [String.append_empty, ← cut.eq_append]
  have hslice := slice_eq_ok heq hsize
  rwa [String.utf8ByteSize_append, ← cut.size_text] at hslice

end Cut

/-! ### Insertions -/

theorem Held.size_lt_words (held : Held) : held.text.utf8ByteSize < UInt64.size :=
  held.size_lt.trans (by decide)

/-- Any offset is clamped, without a fault, to the longest beginning it allows. -/
theorem clamp_eq_ok (text : Held) (offset : UInt64) :
    ∃ part, LongestWithin offset.toNat text.text part ∧
      clamp text offset = .ok (.ofNat part.utf8ByteSize) := by
  have hsize := text.size_lt_words
  obtain ⟨part, hlongest, hback⟩ :=
    backUp_eq_ok text.text ((min_le_right offset.toNat _).trans_lt hsize)
  refine ⟨part, hlongest.of_min, ?_⟩
  rw [← min_ofNat offset.toNat_lt_size hsize, UInt64.ofNat_toNat] at hback
  exact hback

/-- Once the two boundaries are known, every step goes through. -/
theorem splice_of_clamp {text snippet : Held} {start stop : UInt64}
    (cut : Cut text.text start.toNat stop.toNat)
    (hstart : clamp text start = .ok (.ofNat cut.before.utf8ByteSize))
    (hstop : clamp text stop = .ok (.ofNat cut.upTo.utf8ByteSize)) :
    splice text start stop snippet =
      .ok ⟨.ofNat (cut.filled snippet.text).utf8ByteSize, (cut.filled snippet.text).toUTF8,
        .ofNat (cut.before.utf8ByteSize + snippet.text.utf8ByteSize)⟩ := by
  have htext := text.size_lt
  have hsnippet := snippet.size_lt
  have hwhole := cut.size_text
  have hselected := cut.max_size
  -- each step of the arithmetic stays within a word, since both texts are held in memory
  have hmax : max (UInt64.ofNat cut.upTo.utf8ByteSize) (.ofNat cut.before.utf8ByteSize) =
      .ofNat (cut.before.utf8ByteSize + cut.selected.utf8ByteSize) := by
    rw [max_ofNat (by omega) (by omega), hselected]
  have hlength : sub (.ofNat (cut.before.utf8ByteSize + cut.selected.utf8ByteSize))
      (.ofNat cut.before.utf8ByteSize) = .ok (.ofNat cut.selected.utf8ByteSize) := by
    rw [sub_ofNat (by omega) (by omega), Nat.add_sub_cancel_left]
  have hkept : sub text.size (.ofNat cut.selected.utf8ByteSize) =
      .ok (.ofNat (cut.before.utf8ByteSize + cut.after.utf8ByteSize)) := by
    rw [Held.size, sub_ofNat (by omega) (by omega), hwhole]
    congr 2
    omega
  have hroom : add (.ofNat (cut.before.utf8ByteSize + cut.after.utf8ByteSize)) snippet.size =
      .ok (.ofNat (cut.filled snippet.text).utf8ByteSize) := by
    rw [Held.size, add_ofNat (by omega), cut.size_filled]
    congr 2
    omega
  have hbefore : slice text.bytes 0 (.ofNat cut.before.utf8ByteSize) =
      .ok cut.before.toUTF8 := cut.slice_before text.size_lt_words
  have hafter : slice text.bytes
      (.ofNat (cut.before.utf8ByteSize + cut.selected.utf8ByteSize)) text.size =
        .ok cut.after.toUTF8 := cut.slice_after text.size_lt_words
  have hcursor : add (.ofNat cut.before.utf8ByteSize) snippet.size =
      .ok (.ofNat (cut.before.utf8ByteSize + snippet.text.utf8ByteSize)) :=
    add_ofNat (by omega)
  simp only [splice, hstart, hstop, bind, Except.bind, pure, Except.pure, hmax, hlength, hkept,
    hroom, hbefore, hafter, hcursor]
  simp only [Cut.filled, Held.bytes, String.toUTF8_eq_toByteArray, String.toByteArray_append]

/-- Whether an insertion gives a text with a snippet in place of the selection, with room for just
this text, and a cursor that is right behind the snippet and between characters. -/
structure IsInsertion {text : String} {start stop : ℕ} (cut : Cut text start stop)
    (snippet : String) (inserted : Inserted) : Prop where
  bytes : inserted.bytes = (cut.filled snippet).toUTF8
  room : inserted.room.toNat = (cut.filled snippet).utf8ByteSize
  cursor : inserted.cursor.toNat = cut.before.utf8ByteSize + snippet.utf8ByteSize
  boundary : (Raw.mk inserted.cursor.toNat).IsValid (cut.filled snippet)
  insert_eq : insert text start stop snippet = (cut.filled snippet, inserted.cursor.toNat)

/-- **An insertion goes through**: a snippet is put in place of a selection without a fault,
whatever the offsets are. -/
theorem splice_eq_ok (text snippet : Held) (start stop : UInt64) :
    ∃ inserted, splice text start stop snippet = .ok inserted ∧
      ∃ cut : Cut text.text start.toNat stop.toNat, IsInsertion cut snippet.text inserted := by
  obtain ⟨before, hstart, hclampStart⟩ := clamp_eq_ok text start
  obtain ⟨upTo, hstop, hclampStop⟩ := clamp_eq_ok text stop
  obtain ⟨cut, rfl, rfl⟩ := exists_cut hstart hstop
  have htext := text.size_lt
  have hsnippet := snippet.size_lt
  have hwhole := cut.size_text
  have hfilled := cut.size_filled snippet.text
  have hroom : (cut.filled snippet.text).utf8ByteSize < UInt64.size := by omega
  have hcursor : cut.before.utf8ByteSize + snippet.text.utf8ByteSize < UInt64.size := by omega
  refine ⟨_, splice_of_clamp cut hclampStart hclampStop, cut, rfl,
    toNat_ofNat hroom, toNat_ofNat hcursor, ?_, ?_⟩
  · rw [toNat_ofNat hcursor, Raw.isValid_iff_exists_append]
    exact ⟨cut.before ++ snippet.text, cut.after, rfl, by rw [← String.utf8ByteSize_append]; rfl⟩
  · rw [toNat_ofNat hcursor]
    exact cut.insert_eq snippet.text

/-- An offset inside a character of two bytes. -/
example : insert "aé" 2 2 "x" = ("axé", 2) := by decide +kernel

end Wireframe.Snippet
