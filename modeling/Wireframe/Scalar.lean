import Wireframe.Decimal.Double

/-!
# Scalars

Measures of a drawing are scalars: numbers that can be added, subtracted, multiplied, divided and
compared, written as decimal literals, and turned into numerals and back. Drawings are made with
doubles; everything about layout is defined for any scalar, so that it can be read over exact
numbers as well.
-/

namespace Wireframe

/-- A type of numbers to draw with. -/
class Scalar (α : Type) extends Add α, Sub α, Mul α, Div α, OfScientific α where
  /-- The larger of two numbers. -/
  larger : α → α → α
  /-- The numeral that a number is written as. -/
  numeral : α → Numeral
  /-- The number that a numeral stands for. -/
  ofNumeral : Numeral → α

namespace Scalar

/-- A count as a scalar. -/
def ofNat {α : Type} [Scalar α] (n : Nat) : α := OfScientific.ofScientific n false 0

/-- A scalar as it is written. -/
def text {α : Type} [Scalar α] (x : α) : String := String.ofList (numeral x).text

/-- Of two doubles, one of which may be no number, the larger one; the first if they are equal. -/
def largerDouble (a b : Float) : Float := if a.isNaN then b else if a < b then b else a

instance : Scalar Float where
  larger := largerDouble
  numeral := Numeral.ofDouble
  ofNumeral := Numeral.toDouble

end Scalar

end Wireframe
