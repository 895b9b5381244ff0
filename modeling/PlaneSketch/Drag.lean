import PlaneSketch.Compile
import PlaneSketch.Equations

/-!
Dragging: the anchors of a feature are pulled to a target.
-/

namespace PlaneSketch

/-- A request to move a feature towards a position. -/
structure Drag (α : Type) where
  feature : Handle
  target : Vec2 α
  deriving Repr

/-- The points whose mean follows a drag of a feature: the point itself, the ends of a line, the
centre of everything round. -/
def Sketch.dragAnchors {α : Type} (sketch : Sketch α) (h : Handle) :
    Except Failure (List Handle) := do
  let feature ← sketch.liveFeature h
  match feature.kind with
  | .point => return [h]
  | .line => return feature.references.take 2
  | .arc => return [← Sketch.referenceAt feature.references 1]
  | .circle | .gear => return [← Sketch.referenceAt feature.references 0]

/-- A pull on the mean of some pairs of columns towards a target, with a weight. -/
structure Pull (α : Type) where
  xColumns : List Nat
  yColumns : List Nat
  target : Vec2 α
  weight : α
  deriving Repr

namespace Pull

variable {α : Type} [Scalar α]

/-- The mean of some columns. -/
def meanAt (columns : List Nat) (x : List α) : α :=
  Vector.mean (columns.map fun i => x.getD i 0)

/-- How far the means are from the target, times the weight. -/
def residuals (pull : Pull α) (x : List α) : List α :=
  [pull.weight * (meanAt pull.xColumns x - pull.target.x),
    pull.weight * (meanAt pull.yColumns x - pull.target.y)]

/-- The partial derivatives of the residuals by `width` columns. -/
def jacobian (pull : Pull α) (width : Nat) : Matrix α :=
  [pull.xColumns, pull.yColumns].map fun columns =>
    (List.range width).map fun i =>
      if columns.contains i then pull.weight / Scalar.ofNat columns.length else 0

/-- Add a number to some columns. -/
def shift (columns : List Nat) (amount : α) (x : List α) : List α :=
  x.zipIdx.map fun (value, i) => if columns.contains i then value + amount else value

/-- Move the pulled columns so that their means stand on the target. -/
def recenter (pull : Pull α) (x : List α) : List α :=
  shift pull.yColumns (pull.target.y - meanAt pull.yColumns x)
    (shift pull.xColumns (pull.target.x - meanAt pull.xColumns x) x)

end Pull

/-- The pull of some anchors in a system; none when no coordinate of an anchor is free in it. -/
def Equations.pull? {α : Type} [Scalar α] (system : Equations α) (anchors : List Handle)
    (target : Vec2 α) (weight : α) : Option (Pull α) :=
  let xColumns := anchors.filterMap fun h => system.column? ⟨h, .x⟩
  let yColumns := anchors.filterMap fun h => system.column? ⟨h, .y⟩
  if xColumns.isEmpty || yColumns.isEmpty then none
  else some ⟨xColumns, yColumns, target, weight⟩

/-- Mean of some points, coordinate by coordinate. -/
def meanPoint {α : Type} [Scalar α] (points : List (Vec2 α)) : Vec2 α :=
  ⟨Vector.mean (points.map (·.x)), Vector.mean (points.map (·.y))⟩

/-- For each island that holds a free anchor, where the mean of its free anchors has to go. The
mean of all anchors, bound ones included, goes to the target, and every island goes along by the
same displacement. -/
def dragTargets {α : Type} [Scalar α] (pool : Pool α) (islands : List (Island α))
    (anchors : List Handle) (target : Vec2 α) : Except Failure (List (Nat × Vec2 α)) := do
  let points ← anchors.mapM fun h => do return (h, ← pool.point h)
  let displacement := target - meanPoint (points.map (·.2))
  let placed := points.filterMap fun (h, position) =>
    if pool.isFree ⟨h, .x⟩ then (islandOf? islands ⟨h, .x⟩).map fun index => (index, position)
    else none
  let indices := firstOccurrences (placed.map (·.1))
  return indices.map fun index =>
    let members := (placed.filter fun pair => pair.1 = index).map (·.2)
    (index, meanPoint members + displacement)

end PlaneSketch
