import PlaneSketch.LinearAlgebra.LeastSquares

/-!
Singular values by plane rotations.

Pairs of vectors are rotated until all are orthogonal to each other; rotations keep the singular
values of the matrix, and the singular values of a matrix with orthogonal rows are their lengths.
-/

namespace PlaneSketch.SingularValues

variable {α : Type} [Scalar α]

/-- Products below this fraction of the lengths count as orthogonal. -/
def orthogonalFraction : α := Scalar.ofDecimal 1 (-15)

/-- Rotate two vectors in their plane so that they become orthogonal; none when they already
are. -/
def rotate? (v w : List α) : Option (List α × List α) :=
  let a := Vector.dot v v
  let b := Vector.dot w w
  let c := Vector.dot v w
  if Ordered.le (Scalar.abs c) (orthogonalFraction * Scalar.sqrt (a * b)) then none
  else
    let z := (b - a) / (Scalar.two * c)
    let size := 1 / (Scalar.abs z + Scalar.sqrt (1 + z * z))
    let tangent := if Ordered.lt z 0 then -size else size
    let cosine := 1 / Scalar.sqrt (1 + tangent * tangent)
    let sine := cosine * tangent
    some (List.zipWith (fun x y => cosine * x - sine * y) v w,
      List.zipWith (fun x y => sine * x + cosine * y) v w)

/-- A vector rotated against each of the others in turn, the others after it, and whether any
rotation took place. -/
def pass (v : List α) : List (List α) → List α × List (List α) × Bool
  | [] => (v, [], false)
  | w :: others =>
    match rotate? v w with
    | none =>
      let (v', rest, moved) := pass v others
      (v', w :: rest, moved)
    | some (v', w') =>
      let (v'', rest, _) := pass v' others
      (v'', w' :: rest, true)

theorem length_pass (v : List α) (others : List (List α)) :
    (pass v others).2.1.length = others.length := by
  induction others generalizing v with
  | nil => rfl
  | cons w others ih =>
    unfold pass
    split <;> simp [ih]

/-- Every pair rotated once. -/
def sweep : List (List α) → List (List α) × Bool
  | [] => ([], false)
  | v :: others =>
    let passed := pass v others
    let swept := sweep passed.2.1
    (passed.1 :: swept.1, passed.2.2 || swept.2)
  termination_by vectors => vectors.length
  decreasing_by simp [length_pass]

/-- Sweep until nothing moves, at most `fuel` times. -/
def orthogonalise : Nat → List (List α) → List (List α)
  | 0, vectors => vectors
  | fuel + 1, vectors =>
    let (swept, moved) := sweep vectors
    if moved then orthogonalise fuel swept else swept

/-- Put a number into a decreasing list. -/
def insertDecreasing (x : α) : List α → List α
  | [] => [x]
  | y :: rest => if Ordered.lt x y then y :: insertDecreasing x rest else x :: y :: rest

/-- The singular values of a matrix of finite entries, in decreasing order. Rows or columns are
rotated, whichever are fewer; convergence is quadratic, so that sixty sweeps are never used up. -/
def compute (rows : Matrix α) : List α :=
  let width := (rows.map List.length).foldl max 0
  let vectors := if rows.length ≤ width then rows else Matrix.columns width rows
  let size := LeastSquares.gauge (rows.flatMap id)
  let scaled := vectors.map fun v => v.map (· / size)
  let lengths := (orthogonalise 60 scaled).map fun v => size * Vector.norm v
  lengths.foldr insertDecreasing []

end PlaneSketch.SingularValues
