import PlaneSketch.Handle
import PlaneSketch.Scalar

/-!
Features: the points, lines, circles, arcs and gears of a drawing. A feature refers to the points
it is built on. A feature read from outside may refer to anything.
-/

namespace PlaneSketch

/-- The kinds of features. -/
inductive FeatureKind
  | point | line | circle | arc | gear
  deriving Repr, DecidableEq, Inhabited

/-- The name of a kind. -/
def FeatureKind.name : FeatureKind → String
  | point => "point"
  | line => "line"
  | circle => "circle"
  | arc => "arc"
  | gear => "gear"

/-- Every kind of feature. -/
def FeatureKind.all : List FeatureKind := [point, line, circle, arc, gear]

/-- The kind of a name. -/
def FeatureKind.ofName? (name : String) : Option FeatureKind := all.find? (·.name = name)

/-- The measures of a gear. They are carried along and never read by the solver. -/
structure Gear (α : Type) where
  pitch : α
  teeth : Int
  pressureAngle : α
  offset : α
  deriving Repr

/-- A feature: a point has a position, a circle a radius, a line two ends, an arc a start, a
centre and an end, a circle and a gear a centre. -/
structure Feature (α : Type) where
  kind : FeatureKind
  references : List Handle
  x : α
  y : α
  r : α
  construction : Bool
  gear : Option (Gear α)
  deriving Repr

namespace Feature

variable {α : Type} [Scalar α]

/-- A feature with all numbers zero. -/
def plain (kind : FeatureKind) (references : List Handle) (construction : Bool) : Feature α :=
  ⟨kind, references, 0, 0, 0, construction, none⟩

/-- A point. -/
def point (x y : α) (construction : Bool) : Feature α :=
  { plain .point [] construction with x := x, y := y }

/-- A line from one point to another. -/
def line (a b : Handle) (construction : Bool) : Feature α := plain .line [a, b] construction

/-- A circle around a point. -/
def circle (center : Handle) (r : α) (construction : Bool) : Feature α :=
  { plain .circle [center] construction with r := r }

/-- An arc around a point. -/
def arc (start center finish : Handle) (construction : Bool) : Feature α :=
  plain .arc [start, center, finish] construction

/-- A gear on a point. -/
def spurGear (center : Handle) (measures : Gear α) : Feature α :=
  { plain .gear [center] false with gear := some measures }

end Feature

/-- The measures of a gear about which nothing is said. -/
def Gear.standard {α : Type} [Scalar α] : Gear α := ⟨1, 20, Scalar.ofNat 20, 0⟩

end PlaneSketch
