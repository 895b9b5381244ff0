import PlaneSketch.LinearAlgebra.Methods

/-!
Rank decisions.

The rank counts singular values above a bound; the rows to blame for a low rank are those that lie
within a bound of the span of the rows kept before them.
-/

namespace PlaneSketch.Rank

variable {α : Type} [Scalar α]

/-- The bound below which a singular value counts as zero: the tolerance, relative to the largest
singular value when that is above one. None when the singular values cannot be found. -/
def threshold? (methods : Methods α) (rows : Matrix α) (tolerance : α) : Option α :=
  if Matrix.size rows = 0 then some tolerance
  else (methods.singularValues? rows).map fun sigma =>
    tolerance * Scalar.raise 1 (sigma.headD 0)

/-- The number of singular values above the bound. -/
def numeric? (methods : Methods α) (rows : Matrix α) (tolerance : α) : Option Nat :=
  if Matrix.size rows = 0 then some 0
  else (methods.singularValues? rows).map fun sigma =>
    let bound := tolerance * Scalar.raise 1 (sigma.headD 0)
    sigma.countP fun s => Ordered.lt bound s

/-- A row without its parts along the vectors of a basis, taken off one at a time. -/
def withoutParts (basis : List (List α)) (row : List α) : List α :=
  basis.foldl (fun rest q =>
    let product := Vector.dot rest q
    List.zipWith (fun r e => r - product * e) rest q) row

/-- What is left of a row beyond a basis: two passes, the second for what rounding left over. -/
def remainder (basis : List (List α)) (row : List α) : List α :=
  withoutParts basis (withoutParts basis row)

/-- The positions of the rows that lie within the tolerance of the span of the kept rows before
them. `basis` spans the rows kept so far, `position` is that of the first of `rows`. -/
def dependentFrom (tolerance : α) (basis : List (List α)) (position : Nat) : Matrix α → List Nat
  | [] => []
  | row :: rows =>
    let rest := remainder basis row
    let length := Vector.norm rest
    if Ordered.le length tolerance then
      position :: dependentFrom tolerance basis (position + 1) rows
    else
      dependentFrom tolerance (basis ++ [rest.map (· / length)]) (position + 1) rows

/-- The positions of the rows that depend on rows before them. -/
def dependentRows (rows : Matrix α) (tolerance : α) : List Nat :=
  dependentFrom tolerance [] 0 rows

end PlaneSketch.Rank
