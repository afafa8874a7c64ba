import Wireframe.Decimal.Numeral

/-!
# Shortest decimals

The numeral that stands for a double: of all decimals that round to it the one with the fewest
digits, and of those the nearest to it; where two are equally near, the larger one.

A positive double is `m · 2 ^ q`. The decimals that round to it fill an interval around it, which
reaches half way to the next double on both sides and has its ends iff `m` is even. The grids of
multiples of `10 ^ p` are searched from the coarsest one down; the first with a point in the
interval has it right below or right above the double. All of it is exact arithmetic on natural
numbers.
-/

namespace Wireframe.Decimal

/-- An interval around a value, all three on a common scale: `value / unit` is the number meant. -/
structure Rounding where
  /-- The lower end. -/
  low : Nat
  /-- The value. -/
  value : Nat
  /-- The upper end. -/
  high : Nat
  /-- The scale. -/
  unit : Nat
  /-- Whether the ends belong to the interval. -/
  closed : Bool

namespace Rounding

/-- The interval of numbers that round to `m · 2 ^ q`. Below a power of two the doubles lie twice as
close, so the interval reaches only half as far down there. -/
def ofDouble (m : Nat) (q : Int) (closeBelow : Bool) : Rounding :=
  let shift := q - 2
  let up := twoTo shift.toNat
  { low := (4 * m - if closeBelow then 1 else 2) * up
    value := 4 * m * up
    high := (4 * m + 2) * up
    unit := twoTo (-shift).toNat
    closed := m % 2 == 0 }

/-- Whether a number on the same scale lies in the interval. -/
def holds (r : Rounding) (n : Nat) : Bool :=
  if r.closed then r.low ≤ n && n ≤ r.high else r.low < n && n < r.high

/-- The same interval on a scale on which the multiples of `10 ^ p` are whole. -/
def scaled (r : Rounding) (p : Int) : Rounding :=
  let up := tenTo (-p).toNat
  { r with
    low := r.low * up
    value := r.value * up
    high := r.high * up
    unit := r.unit * tenTo p.toNat }

/-- The point of the grid of multiples of `10 ^ p` that lies in the interval nearest to the value,
as a multiple: one of its two neighbours, the upper one where both are equally near. -/
def onGrid? (r : Rounding) (p : Int) : Option Nat :=
  let s := r.scaled p
  let below := s.value / s.unit
  let above := below + 1
  match s.holds (below * s.unit), s.holds (above * s.unit) with
  | true, true =>
    if s.value - below * s.unit < above * s.unit - s.value then some below else some above
  | true, false => some below
  | false, true => some above
  | false, false => none

/-- The coarsest grid with a point in the interval, from `10 ^ p` down. -/
def search (r : Rounding) : Nat → Int → Nat × Int
  | 0, p => ((r.scaled p).value / (r.scaled p).unit, p)
  | fuel + 1, p =>
    match r.onGrid? p with
    | some d => (d, p)
    | none => r.search fuel (p - 1)

/-- The decimal that stands for the value. The grid on which the value itself lies ends the
search. -/
def shortest (r : Rounding) : Nat × Int :=
  let top := (Numeral.digits (r.high / r.unit)).length
  r.search (top + r.unit.log2 + 1) top

end Rounding

/-- The numeral for the double with the given bits. -/
def ofBits (bits : UInt64) : Numeral :=
  let negative := bits >>> 63 == 1
  let biased := ((bits >>> 52) &&& 0x7FF).toNat
  let fraction := (bits &&& 0xFFFFFFFFFFFFF).toNat
  if biased = 0x7FF then
    if fraction = 0 then .infinite negative else .nan
  else if biased = 0 then
    if fraction = 0 then .finite negative 0 0
    else
      let found := (Rounding.ofDouble fraction (-1074) false).shortest
      .decimal negative found.1 found.2
  else
    let closeBelow := fraction == 0 && 1 < biased
    let found := (Rounding.ofDouble (fraction + twoTo 52) (biased - 1075) closeBelow).shortest
    .decimal negative found.1 found.2

end Wireframe.Decimal
