/-!
# Powers

The powers of the two bases that numbers are reckoned in here: two, in which doubles are kept, and
ten, in which they are written.
-/

namespace Wireframe

/-- A power of two. -/
def twoTo (k : Nat) : Nat := Nat.pow 2 k

/-- A power of ten. -/
def tenTo (k : Nat) : Nat := Nat.pow 10 k

theorem tenTo_zero : tenTo 0 = 1 := rfl

theorem tenTo_succ (k : Nat) : tenTo (k + 1) = tenTo k * 10 := rfl

theorem tenTo_pos (k : Nat) : 0 < tenTo k := by
  induction k with
  | zero => decide
  | succ k ih => rw [tenTo_succ]; omega

end Wireframe
