import PlaneSketch.Block
import PlaneSketch.Pool
import PlaneSketch.Sketch.Lookup

/-!
Turning a drawing into blocks.

Arcs come first, then constraints in order. A constraint that fixes a point binds the point in the
pool when it is the first to do so; each other constraint gives one block. Nothing is assumed of
the references: what they lack is a failure.
-/

namespace PlaneSketch

namespace Sketch

variable {α : Type}

/-- The reference at a place. -/
def referenceAt (references : List Handle) (place : Nat) : Except Failure Handle :=
  match references[place]? with
  | some h => .ok h
  | none => .error .missingReference

/-- The first two references of a feature: the ends of a line. -/
def ends (sketch : Sketch α) (line : Handle) : Except Failure (Handle × Handle) := do
  let feature ← sketch.liveFeature line
  let a ← referenceAt feature.references 0
  let b ← referenceAt feature.references 1
  return (a, b)

/-- The two points whose distance is measured: the ends of a single line, or two points. -/
def measuredPoints (sketch : Sketch α) (references : List Handle) :
    Except Failure (Handle × Handle) :=
  match references with
  | [line] => sketch.ends line
  | _ => do
    let a ← referenceAt references 0
    let b ← referenceAt references 1
    return (a, b)

/-- Where the radius of a feature is found. -/
def radiusOf (sketch : Sketch α) (h : Handle) : Except Failure Radius := do
  let feature ← sketch.liveFeature h
  match feature.kind with
  | .circle => return .circle h
  | .arc =>
    let start ← referenceAt feature.references 0
    let center ← referenceAt feature.references 1
    return .arc start center
  | .point | .line | .gear => throw (.noRadius h feature.kind)

variable [Scalar α]

/-- The displacement that a length demands along an axis. -/
def displacement (cardinality : Option Cardinality) (length : α) : Vec2 α :=
  match cardinality with
  | some ⟨.leftRight, negated⟩ => ⟨(if negated then -1 else 1) * length, 0⟩
  | some ⟨.topBottom, negated⟩ => ⟨0, (if negated then 1 else -1) * length⟩
  | none => ⟨0, 0⟩

/-- The relation of a length between two points. A length of zero demands that they coincide. -/
def lengthRelation (a b : Handle) (cardinality : Option Cardinality) (length : α) : Relation α :=
  if cardinality.isSome || Scalar.same length 0 then
    .offset a b (displacement cardinality length)
  else .distance a b length

/-- The relation of a point that coincides with, or lies on, a feature. -/
def coincidence (sketch : Sketch α) (constraint point other : Handle) :
    Except Failure (Relation α) := do
  let target ← sketch.liveFeature other
  match target.kind with
  | .point => return .coincident point other
  | .line =>
    let (a, b) ← sketch.ends other
    return .onLine point a b
  | .circle =>
    let center ← referenceAt target.references 0
    return .onCircle point center other
  | .arc =>
    let start ← referenceAt target.references 0
    let center ← referenceAt target.references 1
    return .onArc point center start
  | .gear => throw (.noCoincidence constraint target.kind)

/-- The relation that a constraint demands. -/
def relationOf (sketch : Sketch α) (h : Handle) (constraint : Constraint α) :
    Except Failure (Relation α) := do
  let references := constraint.references
  let twoLines (form : Handle → Handle → Handle → Handle → Relation α) :
      Except Failure (Relation α) := do
    let (a, b) ← sketch.ends (← referenceAt references 0)
    let (c, d) ← sketch.ends (← referenceAt references 1)
    return form a b c d
  match constraint.kind with
  | .fixed => return .fixed (← referenceAt references 0) constraint.position
  | .length =>
    let (a, b) ← sketch.measuredPoints references
    return lengthRelation a b constraint.cardinality constraint.measure
  | .radius => return .radius (← sketch.radiusOf (← referenceAt references 0)) constraint.measure
  | .radiusEqual =>
    let r ← sketch.radiusOf (← referenceAt references 0)
    let s ← sketch.radiusOf (← referenceAt references 1)
    return .radiusRatio r s constraint.multiplier
  | .parallel => twoLines .parallel
  | .perpendicular => twoLines .perpendicular
  | .angle =>
    match Scalar.cosSin? constraint.measure with
    | none => throw .infiniteAngle
    | some (cosine, sine) =>
      match references with
      | [line] =>
        let (a, b) ← sketch.ends line
        return .heading a b cosine sine
      | _ => twoLines fun a b c d => .turn a b c d cosine sine
  | .coincident =>
    match references with
    | [point, other] => sketch.coincidence h point other
    | _ => throw .referenceCount
  | .symmetric =>
    match references with
    | [p, q, about] =>
      let centre ← sketch.liveFeature about
      if centre.kind = .point then return .midpoint p q about
      else
        let (a, b) ← sketch.ends about
        return .reflected p q a b
    | _ => throw .referenceCount
  | .alongAxis =>
    let (a, b) ← sketch.ends (← referenceAt references 0)
    let component : Component :=
      match constraint.cardinality with
      | some ⟨.topBottom, _⟩ => .x
      | some ⟨.leftRight, _⟩ | none => .y
    return .level ⟨a, component⟩ ⟨b, component⟩
  | .lerp =>
    match references with
    | [point, line] =>
      let (a, b) ← sketch.ends line
      return .between point a b constraint.measure
    | _ => throw .referenceCount
  | .equalLength => twoLines fun a b c d => .lengthRatio a b c d constraint.multiplier

/-- The relation of an arc by itself. -/
def arcRelation (references : List Handle) : Except Failure (Relation α) :=
  match references with
  | [start, center, finish] => .ok (.arc start center finish)
  | _ => .error .referenceCount

/-- The blocks of the arcs, apart from those to be left out. -/
def arcBlocks (sketch : Sketch α) (skip : List Handle) : Except Failure (List (Block α)) :=
  let arcs := sketch.features.items.filter fun (h, feature) =>
    feature.kind = .arc && !skip.contains h
  arcs.mapM fun (h, feature) => do
    return ⟨.arc h, ← arcRelation feature.references⟩

/-- The pool after one constraint and the blocks that the constraint gives. -/
def compileConstraint (sketch : Sketch α) (pool : Pool α) (h : Handle)
    (constraint : Constraint α) : Except Failure (Pool α × List (Block α)) := do
  if constraint.kind = .fixed then
    let point ← referenceAt constraint.references 0
    let (bound, outcome) := pool.bind point constraint.position h
    if ← outcome then return (bound, [])
  let relation ← sketch.relationOf h constraint
  return (pool, [⟨.constraint h constraint.kind, relation⟩])

/-- The pool after some constraints and the blocks that they give. -/
def compileConstraints (sketch : Sketch α) (pool : Pool α) :
    List (Handle × Constraint α) → Except Failure (Pool α × List (Block α))
  | [] => .ok (pool, [])
  | (h, constraint) :: rest => do
    let (pool, blocks) ← sketch.compileConstraint pool h constraint
    let (pool, others) ← sketch.compileConstraints pool rest
    return (pool, blocks ++ others)

/-- The blocks of a drawing and the pool with the points bound that the drawing fixes, features
and constraints to be left out apart. -/
def compile (sketch : Sketch α) (pool : Pool α) (skipFeatures skipConstraints : List Handle) :
    Except Failure (Pool α × List (Block α)) := do
  let arcs ← sketch.arcBlocks skipFeatures
  let constraints := sketch.constraints.items.filter fun item => !skipConstraints.contains item.1
  let (pool, blocks) ← sketch.compileConstraints pool constraints
  return (pool, arcs ++ blocks)

end Sketch

end PlaneSketch
