import PlaneSketch.Handle
import PlaneSketch.Vec

/-!
Constraints: what a drawing demands of its features.
-/

namespace PlaneSketch

/-- The kinds of constraints. -/
inductive ConstraintKind
  | fixed | length | radius | radiusEqual | parallel | perpendicular | angle | coincident
  | symmetric | alongAxis | lerp | equalLength
  deriving Repr, DecidableEq, Inhabited

namespace ConstraintKind

/-- The name of a kind. -/
def name : ConstraintKind → String
  | fixed => "fixed"
  | length => "length"
  | radius => "radius"
  | radiusEqual => "radius_equal"
  | parallel => "parallel"
  | perpendicular => "perpendicular"
  | angle => "angle"
  | coincident => "coincident"
  | symmetric => "symmetric"
  | alongAxis => "along_axis"
  | lerp => "lerp"
  | equalLength => "equal_length"

/-- Every kind of constraint. -/
def all : List ConstraintKind :=
  [fixed, length, radius, radiusEqual, parallel, perpendicular, angle, coincident, symmetric,
    alongAxis, lerp, equalLength]

/-- The kind of a name. -/
def ofName? (name : String) : Option ConstraintKind := all.find? fun kind => kind.name = name

/-- The kinds whose amount is the ratio of two measures. -/
def isRatio : ConstraintKind → Bool
  | radiusEqual | equalLength => true
  | _ => false

/-- The kinds that cannot do without an amount. -/
def isMeasured : ConstraintKind → Bool
  | length | radius | angle | lerp => true
  | _ => false

/-- The number of references, where the kind alone decides it: a length is that of a line or of
two points, an angle one of a line or of two lines. -/
def arity? : ConstraintKind → Option Nat
  | length | angle => none
  | fixed | radius | alongAxis => some 1
  | radiusEqual | parallel | perpendicular | coincident | lerp | equalLength => some 2
  | symmetric => some 3

end ConstraintKind

/-- The two axes of the plane. -/
inductive Axis
  | leftRight | topBottom
  deriving Repr, DecidableEq, Inhabited

/-- The name of an axis. -/
def Axis.name : Axis → String
  | leftRight => "LeftRight"
  | topBottom => "TopBottom"

/-- The axis of a name. -/
def Axis.ofName? (name : String) : Option Axis := [leftRight, topBottom].find? (·.name = name)

/-- Along which axis a dimension is measured, and in which direction: left to right towards larger
`x`, top to bottom towards smaller `y`, or the other way when negated. -/
structure Cardinality where
  axis : Axis
  negated : Bool
  deriving Repr, DecidableEq, Inhabited

/-- Where the label of a dimension is drawn; never read by the solver. -/
structure LabelOffset (α : Type) where
  x : α
  y : α
  variant : Int
  deriving Repr

/-- The label of a dimension about which nothing is said. -/
def LabelOffset.standard {α : Type} [Scalar α] : LabelOffset α := ⟨0, Scalar.ofNat 35, 0⟩

/-- A constraint on the features it refers to. A constraint read from outside may refer to
anything and lack what its kind needs. -/
structure Constraint (α : Type) where
  kind : ConstraintKind
  references : List Handle
  amount : Option α
  position : Vec2 α
  cardinality : Option Cardinality
  label : LabelOffset α
  deriving Repr

namespace Constraint

variable {α : Type} [Scalar α]

/-- The ratio of a constraint on a ratio: one when no amount is given. -/
def multiplier (c : Constraint α) : α := c.amount.getD 1

/-- The amount, zero when none is given. -/
def measure (c : Constraint α) : α := c.amount.getD 0

/-- A constraint that carries only what is given. -/
def plain (kind : ConstraintKind) (references : List Handle) (amount : Option α)
    (cardinality : Option Cardinality) : Constraint α :=
  ⟨kind, references, amount, ⟨0, 0⟩, cardinality, LabelOffset.standard⟩

/-- A point fixed at a position. -/
def fixed (point : Handle) (position : Vec2 α) : Constraint α :=
  { plain .fixed [point] none none with position := position }

/-- A line along an axis. -/
def alongAxis (line : Handle) (axis : Axis) : Constraint α :=
  plain .alongAxis [line] none (some ⟨axis, false⟩)

end Constraint

end PlaneSketch
