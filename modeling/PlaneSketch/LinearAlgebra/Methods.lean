import PlaneSketch.LinearAlgebra.SingularValues

/-!
The two matrix computations that the solver takes from outside: a least-squares step and singular
values. Everything above them is stated for any choice of the two.
-/

namespace PlaneSketch

/-- How to solve a least-squares problem and how to find singular values. -/
structure Methods (α : Type) where
  /-- A vector `d` of the given width that brings `rows * d` closest to the target; none when the
  method fails. -/
  leastSquares? : Nat → Matrix α → List α → Option (List α)
  /-- Whatever the vector is, it has the width asked for. -/
  length_step : ∀ {width : Nat} {rows : Matrix α} {target d : List α},
    leastSquares? width rows target = some d → d.length = width
  /-- The singular values of a matrix with entries, in decreasing order; none when the method
  fails. -/
  singularValues? : Matrix α → Option (List α)

/-- Orthogonal methods, for matrices of finite entries. -/
def Methods.orthogonal {α : Type} [Scalar α] : Methods α where
  leastSquares? width rows target :=
    if Matrix.isFinite rows then some (LeastSquares.solve width rows target) else none
  length_step := by
    intro width rows target d found
    split at found
    · cases found
      exact LeastSquares.length_solve width rows target
    · cases found
  singularValues? rows :=
    if Matrix.isFinite rows then some (SingularValues.compute rows) else none

end PlaneSketch
