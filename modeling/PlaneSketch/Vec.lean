import PlaneSketch.Scalar

/-!
Vectors and matrices of scalars.

A vector is a list, a matrix the list of its rows. Entries beyond the end of a vector are zero.
-/

namespace PlaneSketch

/-- A point or a direction in the plane. -/
structure Vec2 (α : Type) where
  x : α
  y : α
  deriving Repr, DecidableEq

namespace Vec2

variable {α : Type} [Scalar α]

instance : Add (Vec2 α) := ⟨fun a b => ⟨a.x + b.x, a.y + b.y⟩⟩
instance : Sub (Vec2 α) := ⟨fun a b => ⟨a.x - b.x, a.y - b.y⟩⟩
instance : Neg (Vec2 α) := ⟨fun a => ⟨-a.x, -a.y⟩⟩

/-- The vector times a number. -/
def scale (k : α) (a : Vec2 α) : Vec2 α := ⟨k * a.x, k * a.y⟩

/-- Product of the components along each other. -/
def dot (a b : Vec2 α) : α := a.x * b.x + a.y * b.y

/-- Signed area of the parallelogram on two vectors. -/
def cross (a b : Vec2 α) : α := a.x * b.y - a.y * b.x

/-- Length. The squares are formed as they are, so that very large or very small vectors overflow
to infinity or vanish. -/
def norm (a : Vec2 α) : α := Scalar.sqrt (a.x * a.x + a.y * a.y)

/-- The direction of a vector; zero for a vector too short to have one. -/
def direction (a : Vec2 α) : Vec2 α :=
  let length := a.norm
  if Ordered.le length Scalar.lengthFloor then ⟨0, 0⟩ else ⟨a.x / length, a.y / length⟩

end Vec2


end PlaneSketch
