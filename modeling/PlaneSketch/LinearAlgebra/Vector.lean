import PlaneSketch.Scalar
import PlaneSketch.Total

/-!
Vectors and matrices of scalars: a vector is the list of its entries, a matrix the list of its
rows.
-/

namespace PlaneSketch

/-- A matrix by its rows. -/
abbrev Matrix (α : Type) := List (List α)

namespace Vector

variable {α : Type} [Scalar α]

/-- Sum of the entries, from the left. -/
def sum (xs : List α) : α := xs.foldl (· + ·) 0

/-- Inner product. -/
def dot (xs ys : List α) : α := sum (List.zipWith (· * ·) xs ys)

/-- Euclidean length. -/
def norm (xs : List α) : α := Scalar.sqrt (dot xs xs)

/-- Entrywise sum. -/
def add (xs ys : List α) : List α := List.zipWith (· + ·) xs ys

/-- Entrywise difference. -/
def sub (xs ys : List α) : List α := List.zipWith (· - ·) xs ys

/-- The vector times a number. -/
def scale (k : α) (xs : List α) : List α := xs.map (k * ·)

/-- Mean of the entries. -/
def mean (xs : List α) : α := sum xs / Scalar.ofNat xs.length

/-- Largest magnitude of an entry; zero without entries. -/
def maxAbs (xs : List α) : α := xs.foldl (fun m x => Scalar.greater m (Scalar.abs x)) 0

/-- Are all entries numbers, and of a size that residuals can have? -/
def isUsable (xs : List α) : Bool :=
  xs.all Scalar.isFinite && Ordered.lt (maxAbs xs) Scalar.residualCeiling

/-- The vector whose entry `i` of `n` is one and whose other entries are zero. -/
def unit (n i : Nat) : List α := (List.range n).map fun j => if j = i then 1 else 0

end Vector

namespace Matrix

variable {α : Type} [Scalar α]

/-- Number of entries. -/
def size (rows : Matrix α) : Nat := total (rows.map List.length)

/-- Are all entries numbers? -/
def isFinite (rows : Matrix α) : Bool := rows.all (·.all Scalar.isFinite)

/-- The columns of a matrix with the given number of columns. -/
def columns (width : Nat) (rows : Matrix α) : List (List α) :=
  (List.range width).map fun j => rows.map fun row => row.getD j 0

end Matrix

end PlaneSketch
