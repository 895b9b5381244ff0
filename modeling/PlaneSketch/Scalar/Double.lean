import PlaneSketch.Scalar
import PlaneSketch.Decimal.Read
import PlaneSketch.Scalar.Fused

/-!
Doubles as scalars.
-/

namespace PlaneSketch

/-- Degrees to radians: the factor is rounded once. -/
def radiansPerDegree : Float := 3.141592653589793 / 180.0

instance : Scalar Float where
  zero := 0.0
  one := 1.0
  lt a b := decide (a < b)
  le a b := decide (a ≤ b)
  add := Float.add
  sub := Float.sub
  mul := Float.mul
  div := Float.div
  neg := Float.neg
  ofDecimal := Decimal.nearest
  multiplyAdd := fusedMultiplyAdd
  abs := Float.abs
  sqrt := Float.sqrt
  isFinite := Float.isFinite
  cosSin? degrees :=
    let angle := degrees * radiansPerDegree
    if angle.isInf then none else some (angle.cos, angle.sin)

end PlaneSketch
