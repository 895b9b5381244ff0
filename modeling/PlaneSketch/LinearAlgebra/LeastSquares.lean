import PlaneSketch.LinearAlgebra.Vector

/-!
Least squares by reflections.

A reflection takes the first column onto the first axis; the other columns and the right-hand side
are reflected along. What is left below the first row is the same problem with one column fewer,
and back substitution reads the solution off. The system is never squared, so that columns of very
different sizes keep their digits.
-/

namespace PlaneSketch.LeastSquares

variable {α : Type} [Scalar α]

/-- The length of a vector of two entries, without squaring the larger one. -/
def hypotenuse (a b : α) : α :=
  let a := Scalar.abs a
  let b := Scalar.abs b
  let larger := Scalar.raise a b
  let smaller := if Ordered.lt a b then a else b
  if Scalar.same smaller 0 then larger
  else larger * Scalar.sqrt (1 + (smaller / larger) * (smaller / larger))

/-- A reflection: its direction starts with a one, and `tail` is the rest of the direction. -/
structure Reflection (α : Type) where
  tail : List α
  factor : α

/-- The reflection that takes a column onto the first axis, and the entry that it leaves there.
The sign of that entry is such that nothing cancels. -/
def reflectionOf : List α → α × Reflection α
  | [] => (0, ⟨[], 0⟩)
  | first :: rest =>
    let below := Vector.norm rest
    if Scalar.same below 0 then (first, ⟨rest, 0⟩)
    else
      let length := hypotenuse first below
      let entry := if Ordered.lt first 0 then length else -length
      let scale := 1 / (first - entry)
      (entry, ⟨rest.map (· * scale), (entry - first) / entry⟩)

/-- A column after a reflection: its first entry and the others. -/
def Reflection.apply (r : Reflection α) : List α → α × List α
  | [] => (0, [])
  | first :: rest =>
    let product := (List.zipWith (· * ·) rest r.tail).foldl (· + ·) first
    let amount := r.factor * product
    (first - amount, List.zipWith (fun c d => c - d * amount) rest r.tail)

/-- A row of the triangular system: the entry on the diagonal, those to the right of it, and the
right-hand side. -/
structure Row (α : Type) where
  diagonal : α
  others : List α
  target : α

/-- Bring columns into triangular form from the left. -/
def triangle : List (List α) → List α → List (Row α)
  | [], _ => []
  | column :: columns, target =>
    let (diagonal, reflection) := reflectionOf column
    let reflected := columns.map reflection.apply
    let aim := reflection.apply target
    ⟨diagonal, reflected.map (·.1), aim.1⟩ :: triangle (reflected.map (·.2)) aim.2
  termination_by columns => columns.length

/-- Solve the triangular system from its last row upwards. -/
def substitute (rows : List (Row α)) : List α :=
  rows.foldr (fun row solution =>
    (row.target - Vector.dot row.others solution) / row.diagonal :: solution) []

/-- What a vector is divided by before its entries are squared: its largest magnitude, when the
square of that is out of range, and else one. -/
def gauge (xs : List α) : α :=
  let largest := Vector.maxAbs xs
  let inRange := Ordered.lt (Scalar.ofDecimal 1 (-138)) largest &&
    Ordered.lt largest (Scalar.ofDecimal 1 138)
  if inRange || Scalar.same largest 0 then 1 else largest

/-- The vector `d` that brings `rows * d` closest to `target`, for columns that are linearly
independent. -/
def solve (width : Nat) (rows : Matrix α) (target : List α) : List α :=
  let size := gauge rows.flatten
  let aim := gauge target
  let columns := Matrix.columns width (rows.map fun row => row.map (· / size))
  let solution := substitute (triangle columns (target.map (· / aim)))
  solution.map fun d => d * aim / size

/-! ### The width of a solution -/

theorem length_triangle (columns : List (List α)) (target : List α) :
    (triangle columns target).length = columns.length := by
  fun_induction triangle columns target with
  | case1 => rfl
  | case2 target column columns diagonal reflection _ reflected aim ih =>
    simpa [reflected] using ih

theorem length_substitute (rows : List (Row α)) : (substitute rows).length = rows.length := by
  induction rows with
  | nil => rfl
  | cons row rows ih => simpa [substitute] using ih

/-- A solution has an entry for each column. -/
theorem length_solve (width : Nat) (rows : Matrix α) (target : List α) :
    (solve width rows target).length = width := by
  simp [solve, length_substitute, length_triangle, Matrix.columns]

end PlaneSketch.LeastSquares
