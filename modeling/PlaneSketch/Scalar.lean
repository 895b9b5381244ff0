/-!
The numbers of a drawing.

Everything that computes with coordinates is written over one type of scalars, so that the same
definition runs on doubles and can be reasoned about over the reals. Comparisons are Boolean and
may fail both ways: two doubles need not be comparable.
-/

namespace PlaneSketch

/-- Numbers that can be compared with each other. -/
class Ordered (ν : Type) extends Zero ν, One ν where
  /-- Is the first strictly below the second? -/
  lt : ν → ν → Bool
  /-- Is the first at most the second? -/
  le : ν → ν → Bool

/-- The arithmetic that residuals, least squares and rank decisions are made of. -/
class Scalar (α : Type) extends Ordered α, Add α, Sub α, Mul α, Div α, Neg α where
  /-- The number `mantissa * 10 ^ exponent`. -/
  ofDecimal : Nat → Int → α
  /-- `a * b + c`, with one rounding where numbers are rounded. -/
  multiplyAdd : α → α → α → α
  abs : α → α
  sqrt : α → α
  /-- Is this a number proper, neither infinite nor undefined? -/
  isFinite : α → Bool
  /-- Cosine and sine of an angle in degrees; none for an infinite angle. -/
  cosSin? : α → Option (α × α)

namespace Scalar

variable {α : Type} [Scalar α]

/-- A natural number as a scalar. -/
def ofNat (n : Nat) : α := ofDecimal n 0

/-- Two. -/
def two : α := ofNat 2

/-- One half. -/
def half : α := ofDecimal 5 (-1)

/-- Lengths up to this one have no direction. -/
def lengthFloor : α := ofDecimal 1 (-12)

/-- Residuals from here on do not count as evaluated. -/
def residualCeiling : α := ofDecimal 1 150

/-- Are the two numbers equal in the order? -/
def same (a b : α) : Bool := Ordered.le a b && Ordered.le b a

/-- The larger of two numbers. When they cannot be compared the sum stands for both: it cannot be
compared with anything either. -/
def greater (a b : α) : α :=
  if Ordered.lt a b then b else if Ordered.le b a then a else a + b

/-- The second number when it is strictly larger, else the first. -/
def raise (a b : α) : α := if Ordered.lt a b then b else a

end Scalar

end PlaneSketch
