import Wireframe.Decimal.Shortest
import Wireframe.Proofs.Decimal.Rounding

/-!
# The shortest decimal lies in the interval

The decimal that is found for a double rounds to the double (`Rounding.nearest_shortest`). The
search ends on the grid on which the double itself lies, if not before, so what it finds has passed
the test for the interval (`Rounding.holds_search`). The rest moves that test, which is made with
natural numbers on a common scale, to fractions.
-/

namespace Wireframe.Decimal

open Double (Canonical Nearest gap)

variable {r : Rounding} {m d n : ℕ} {p q : ℤ}

namespace Rounding

/-! ### The search -/

/-- A candidate lies between the ends, and on an end only where the interval is closed. -/
theorem holds_iff : r.holds n = true ↔
    (r.low ≤ n ∧ n ≤ r.high) ∧ (r.closed = false → r.low < n ∧ n < r.high) := by
  rw [holds]
  split
  · next h => simp [h]
  · next h =>
    rw [Bool.not_eq_true] at h
    simp only [h, Bool.and_eq_true, decide_eq_true_eq, forall_const]
    exact ⟨fun hlt => ⟨⟨hlt.1.le, hlt.2.le⟩, hlt⟩, And.right⟩

/-- The point that is found on a grid lies in the interval. -/
theorem holds_of_onGrid? (h : r.onGrid? p = some d) :
    (r.scaled p).holds (d * (r.scaled p).unit) = true := by
  rw [onGrid?] at h
  split at h
  · split at h <;> cases h <;> assumption
  · cases h
    assumption
  · cases h
    assumption
  · cases h

/-- Where the value lies on the grid, the grid has a point in the interval. -/
theorem onGrid?_ne_none (hdvd : (r.scaled p).unit ∣ (r.scaled p).value)
    (hholds : (r.scaled p).holds (r.scaled p).value = true) : r.onGrid? p ≠ none := by
  rw [onGrid?, Nat.div_mul_cancel hdvd, hholds]
  split
  · split <;> exact Option.some_ne_none _
  · exact Option.some_ne_none _
  · next heq _ => cases heq
  · next heq _ => cases heq

/-- The search stops at a grid with a point in the interval, if there is one within the fuel. -/
theorem holds_search {fuel : ℕ} (h : ∃ j < fuel, r.onGrid? (p - j) ≠ none) :
    (r.scaled (r.search fuel p).2).holds
      ((r.search fuel p).1 * (r.scaled (r.search fuel p).2).unit) = true := by
  induction fuel generalizing p with
  | zero =>
    obtain ⟨j, hj, -⟩ := h
    omega
  | succ fuel ih =>
    rw [search]
    split
    · next d hd => exact holds_of_onGrid? hd
    · next hnone =>
      obtain ⟨j, hj, hsome⟩ := h
      cases j with
      | zero => exact absurd hnone (by simpa using hsome)
      | succ j =>
        refine ih ⟨j, by omega, ?_⟩
        rwa [sub_sub, add_comm, ← Nat.cast_succ]

/-- The value itself lies strictly within. -/
theorem holds_value (hlow : r.low < r.value) (hhigh : r.value < r.high) :
    (r.scaled p).holds (r.scaled p).value = true := by
  have hpos := tenTo_pos (-p).toNat
  have hlow' : r.low * tenTo (-p).toNat < r.value * tenTo (-p).toNat :=
    Nat.mul_lt_mul_of_pos_right hlow hpos
  have hhigh' : r.value * tenTo (-p).toNat < r.high * tenTo (-p).toNat :=
    Nat.mul_lt_mul_of_pos_right hhigh hpos
  exact holds_iff.mpr ⟨⟨hlow'.le, hhigh'.le⟩, fun _ => ⟨hlow', hhigh'⟩⟩

theorem twoTo_dvd_tenTo (k : ℕ) : twoTo k ∣ tenTo k := pow_dvd_pow_of_dvd (by decide) k

/-- What is found has passed the test for the interval. -/
theorem holds_shortest {k : ℕ} (hunit : r.unit = twoTo k) (hlow : r.low < r.value)
    (hhigh : r.value < r.high) :
    (r.scaled r.shortest.2).holds (r.shortest.1 * (r.scaled r.shortest.2).unit) = true := by
  have hlog : r.unit.log2 = k := by
    rw [hunit]
    exact Nat.log2_two_pow
  rw [shortest]
  generalize (Numeral.digits (r.high / r.unit)).length = top
  -- The value itself is a multiple of `10 ^ (-k)`.
  refine holds_search ⟨top + k, by omega, onGrid?_ne_none ?_ (holds_value hlow hhigh)⟩
  have hplace : (top : ℤ) - (top + k : ℕ) = -k := by omega
  have hzero : (-(k : ℤ)).toNat = 0 := by omega
  rw [hplace, scaled, neg_neg, Int.toNat_natCast, hzero, tenTo_zero, mul_one, hunit]
  exact (twoTo_dvd_tenTo k).mul_left r.value

/-! ### Fractions -/

/-- A power with an exponent of either sign, without division. -/
theorem pow_toNat {b : ℚ} (hb : b ≠ 0) (q : ℤ) : b ^ q.toNat = b ^ q * b ^ (-q).toNat := by
  rw [← zpow_natCast, ← zpow_natCast, ← zpow_add₀ hb]
  congr 1
  omega

theorem cast_twoTo (k : ℕ) : (twoTo k : ℚ) = 2 ^ k := Nat.cast_pow 2 k

theorem cast_tenTo (k : ℕ) : (tenTo k : ℚ) = 10 ^ k := Nat.cast_pow 10 k

/-- What the ends of an interval and the points of a grid have in common on their scale. -/
def scale (q p : ℤ) : ℚ := 2 ^ (-q).toNat * 10 ^ (-p).toNat

theorem scale_pos (q p : ℤ) : 0 < scale q p := by
  rw [scale]
  positivity

/-- An end of the interval, scaled to a whole number. -/
theorem cast_end (n : ℕ) (q p : ℤ) :
    ((n * twoTo q.toNat * tenTo (-p).toNat : ℕ) : ℚ) = n * 2 ^ q * scale q p := by
  push_cast
  rw [cast_twoTo, cast_tenTo, pow_toNat two_ne_zero q, scale]
  ring

/-- A point of the grid, scaled to a whole number. -/
theorem cast_point (d : ℕ) (q p : ℤ) :
    ((d * (twoTo (-q).toNat * tenTo p.toNat) : ℕ) : ℚ) = d * 10 ^ p * scale q p := by
  push_cast
  rw [cast_twoTo, cast_tenTo, pow_toNat (by norm_num) p, scale]
  ring

theorem end_le_iff : n * twoTo q.toNat * tenTo (-p).toNat ≤ d * (twoTo (-q).toNat * tenTo p.toNat) ↔
    (n * 2 ^ q : ℚ) ≤ d * 10 ^ p := by
  rw [← Nat.cast_le (α := ℚ), cast_end, cast_point, mul_le_mul_iff_left₀ (scale_pos q p)]

theorem end_lt_iff : n * twoTo q.toNat * tenTo (-p).toNat < d * (twoTo (-q).toNat * tenTo p.toNat) ↔
    (n * 2 ^ q : ℚ) < d * 10 ^ p := by
  rw [← Nat.cast_lt (α := ℚ), cast_end, cast_point, mul_lt_mul_iff_left₀ (scale_pos q p)]

theorem le_end_iff : d * (twoTo (-q).toNat * tenTo p.toNat) ≤ n * twoTo q.toNat * tenTo (-p).toNat ↔
    (d * 10 ^ p : ℚ) ≤ n * 2 ^ q := by
  rw [← Nat.cast_le (α := ℚ), cast_end, cast_point, mul_le_mul_iff_left₀ (scale_pos q p)]

theorem lt_end_iff : d * (twoTo (-q).toNat * tenTo p.toNat) < n * twoTo q.toNat * tenTo (-p).toNat ↔
    (d * 10 ^ p : ℚ) < n * 2 ^ q := by
  rw [← Nat.cast_lt (α := ℚ), cast_end, cast_point, mul_lt_mul_iff_left₀ (scale_pos q p)]

theorem zpow_two_mul_four (q : ℤ) : (2 : ℚ) ^ (q - 2) * 4 = 2 ^ q := by
  rw [zpow_sub₀ two_ne_zero]
  norm_num

/-- The interval of a double. -/
def interval (m : ℕ) (q : ℤ) : Rounding := .ofDouble m q (m = 2 ^ 52 ∧ -1074 < q)

/-- The lower end of the interval lies the gap below the double. -/
theorem cast_low (hpos : 0 < m) (q : ℤ) :
    ((4 * m - if decide (m = 2 ^ 52 ∧ -1074 < q) then 1 else 2 : ℕ) : ℚ) * 2 ^ (q - 2) =
      (m - gap m q) * 2 ^ q := by
  rw [← zpow_two_mul_four q]
  by_cases hbelow : m = 2 ^ 52 ∧ -1074 < q
  · rw [gap, if_pos hbelow, if_pos (decide_eq_true hbelow), Nat.cast_sub (by omega)]
    push_cast
    ring
  · rw [gap, if_neg hbelow, if_neg (by simpa using hbelow), Nat.cast_sub (by omega)]
    push_cast
    ring

/-- The upper end lies half a unit above the double. -/
theorem cast_high (m : ℕ) (q : ℤ) : ((4 * m + 2 : ℕ) : ℚ) * 2 ^ (q - 2) = (m + 1 / 2) * 2 ^ q := by
  rw [← zpow_two_mul_four q]
  push_cast
  ring

/-- A point of a grid that passes the test for the interval of a double rounds to the double. -/
theorem nearest_of_holds (hpos : 0 < m) (h : ((interval m q).scaled p).holds
    (d * ((interval m q).scaled p).unit) = true) : Nearest m q (d * 10 ^ p) := by
  obtain ⟨⟨hlow, hhigh⟩, hopen⟩ := holds_iff.mp h
  dsimp only [interval, ofDouble, scaled] at hlow hhigh hopen
  rw [end_le_iff, cast_low hpos] at hlow
  rw [le_end_iff, cast_high] at hhigh
  rw [end_lt_iff, lt_end_iff, cast_low hpos, cast_high] at hopen
  have hclosed (hodd : m % 2 = 1) : (m % 2 == 0) = false := by simp [hodd]
  exact ⟨hlow, hhigh, fun hodd => (hopen (hclosed hodd)).1, fun hodd => (hopen (hclosed hodd)).2⟩

/-- The decimal that is found for a double rounds to the double. -/
theorem nearest_shortest (hpos : 0 < m) (q : ℤ) :
    Nearest m q ((interval m q).shortest.1 * 10 ^ (interval m q).shortest.2) := by
  have hup : 0 < twoTo (q - 2).toNat := Nat.two_pow_pos _
  have hlow : (interval m q).low < (interval m q).value := by
    refine Nat.mul_lt_mul_of_pos_right ?_ hup
    split <;> omega
  have hhigh : (interval m q).value < (interval m q).high :=
    Nat.mul_lt_mul_of_pos_right (by omega) hup
  exact nearest_of_holds hpos (holds_shortest rfl hlow hhigh)

end Rounding

end Wireframe.Decimal
