import PlaneSketch.Variable
import PlaneSketch.Vec

/-!
Geometric relations between points and radii.

A relation has residuals, which all vanish exactly when it holds, and for each residual the partial
derivatives by the variables it reads. `slots` lists these variables in a fixed order, a variable
once for each place at which it is read; the partials of a residual stand in the same order.
-/

namespace PlaneSketch

/-- A value for every variable. -/
abbrev Valuation (α : Type) := Variable → α

/-- The position of a point. -/
def Valuation.point {α : Type} (v : Valuation α) (h : Handle) : Vec2 α := ⟨v ⟨h, .x⟩, v ⟨h, .y⟩⟩

/-- Where a radius is found: it is a variable of a circle, and a distance for an arc. -/
inductive Radius
  | circle (circle : Handle)
  | arc (start center : Handle)
  deriving Repr, DecidableEq

/-- A relation that a drawing demands. Letters name points: lines run from `a` to `b` and from `c`
to `d`. -/
inductive Relation (α : Type)
  /-- `p` stands at a position -/
  | fixed (p : Handle) (position : Vec2 α)
  /-- from `a` to `b` is a given displacement -/
  | offset (a b : Handle) (displacement : Vec2 α)
  /-- `a` and `b` are a given distance apart -/
  | distance (a b : Handle) (length : α)
  /-- a radius has a given size -/
  | radius (r : Radius) (size : α)
  /-- one radius is a multiple of another -/
  | radiusRatio (r s : Radius) (ratio : α)
  /-- two lines are parallel -/
  | parallel (a b c d : Handle)
  /-- two lines are perpendicular -/
  | perpendicular (a b c d : Handle)
  /-- a line has the direction of given cosine and sine -/
  | heading (a b : Handle) (cosine sine : α)
  /-- the first line turned by the angle of given cosine and sine has the direction of the
  second -/
  | turn (a b c d : Handle) (cosine sine : α)
  /-- two points coincide -/
  | coincident (p q : Handle)
  /-- `p` lies on a line -/
  | onLine (p a b : Handle)
  /-- `p` lies on a circle -/
  | onCircle (p center circle : Handle)
  /-- `p` lies on the circle of an arc -/
  | onArc (p center start : Handle)
  /-- `m` is half-way between `p` and `q` -/
  | midpoint (p q m : Handle)
  /-- `p` and `q` are each other's image in a line -/
  | reflected (p q a b : Handle)
  /-- two numbers are equal -/
  | level (a b : Variable)
  /-- `p` divides the line from `a` to `b` at a given fraction -/
  | between (p a b : Handle) (fraction : α)
  /-- the length of one line is a multiple of that of another -/
  | lengthRatio (a b c d : Handle) (ratio : α)
  /-- both ends of an arc are equally far from its centre -/
  | arc (start center finish : Handle)
  deriving Repr

/-- The coordinates of some points. -/
def coordinates (points : List Handle) : List Variable :=
  points.flatMap fun h => [⟨h, .x⟩, ⟨h, .y⟩]

namespace Radius

variable {α : Type} [Scalar α]

/-- The variables that a radius reads. -/
def slots : Radius → List Variable
  | circle c => [⟨c, .r⟩]
  | arc start center => coordinates [start, center]

/-- The size of a radius. -/
def size (v : Valuation α) : Radius → α
  | circle c => v ⟨c, .r⟩
  | arc start center => (v.point start - v.point center).norm

/-- The partial derivatives of the size. -/
def gradient (v : Valuation α) : Radius → List α
  | circle _ => [1]
  | arc start center =>
    let u := (v.point start - v.point center).direction
    [u.x, u.y, -u.x, -u.y]

end Radius

namespace Relation

variable {α : Type} [Scalar α]

/-- The variables that a relation reads, in the order of its partial derivatives. -/
def slots : Relation α → List Variable
  | fixed p _ => coordinates [p]
  | offset a b _ | distance a b _ | heading a b _ _ => coordinates [a, b]
  | radius r _ => r.slots
  | radiusRatio r s _ => r.slots ++ s.slots
  | parallel a b c d | perpendicular a b c d | turn a b c d _ _ | lengthRatio a b c d _ =>
    coordinates [a, b, c, d]
  | coincident p q => coordinates [p, q]
  | onLine p a b | between p a b _ => coordinates [p, a, b]
  | onCircle p center circle => coordinates [p, center] ++ [⟨circle, .r⟩]
  | onArc p center start => coordinates [p, center, start]
  | midpoint p q m => coordinates [p, q, m]
  | reflected p q a b => coordinates [p, q, a, b]
  | level a b => [a, b]
  | arc start center finish => coordinates [start, center, finish]

/-- The number of residuals. -/
def rows : Relation α → Nat
  | fixed _ _ | offset _ _ _ | coincident _ _ | midpoint _ _ _ | reflected _ _ _ _
  | between _ _ _ _ => 2
  | _ => 1

/-- The residuals: all zero exactly when the relation holds. A distance is measured by its square,
so that the residual is smooth where the points meet. -/
def residual (v : Valuation α) : Relation α → List α
  | fixed p position => let d := v.point p - position; [d.x, d.y]
  | offset a b displacement => let d := v.point b - v.point a - displacement; [d.x, d.y]
  | distance a b length =>
    let d := v.point b - v.point a
    [(d.x * d.x + d.y * d.y - length * length) / (Scalar.two * length)]
  | radius r size => [r.size v - size]
  | radiusRatio r s ratio => [r.size v - ratio * s.size v]
  | parallel a b c d => [(v.point b - v.point a).cross (v.point d - v.point c)]
  | perpendicular a b c d => [(v.point b - v.point a).dot (v.point d - v.point c)]
  | heading a b cosine sine =>
    let d := v.point b - v.point a
    [d.y * cosine - d.x * sine]
  | turn a b c d cosine sine =>
    let e := v.point b - v.point a
    let f := v.point d - v.point c
    [e.cross f * cosine - e.dot f * sine]
  | coincident p q => let d := v.point p - v.point q; [d.x, d.y]
  | onLine p a b => [(v.point p - v.point a).cross (v.point b - v.point a)]
  | onCircle p center circle => [(v.point p - v.point center).norm - v ⟨circle, .r⟩]
  | onArc p center start =>
    [(v.point p - v.point center).norm - (v.point start - v.point center).norm]
  | midpoint p q m =>
    let s := v.point p + v.point q - (v.point m).scale Scalar.two
    [s.x, s.y]
  | reflected p q a b =>
    let middle := (v.point p + v.point q).scale Scalar.half
    let axis := v.point b - v.point a
    [(middle - v.point a).cross axis, (v.point q - v.point p).dot axis]
  | level a b => [v b - v a]
  | between p a b fraction =>
    let s := v.point p - (v.point a).scale (1 - fraction) - (v.point b).scale fraction
    [s.x, s.y]
  | lengthRatio a b c d ratio =>
    [(v.point b - v.point a).norm - ratio * (v.point d - v.point c).norm]
  | arc start center finish =>
    [(v.point finish - v.point center).norm - (v.point start - v.point center).norm]

/-- Partial derivatives of a bilinear form of the directions of two lines, given its partials by
the first and by the second direction. -/
def byEnds (first second : Vec2 α) : List α :=
  [-first.x, -first.y, first.x, first.y, -second.x, -second.y, second.x, second.y]

/-- For each residual its partial derivatives, in the order of the slots. -/
def gradient (v : Valuation α) : Relation α → List (List α)
  | fixed _ _ => [[1, 0], [0, 1]]
  | offset _ _ _ => [[-1, 0, 1, 0], [0, -1, 0, 1]]
  | distance a b length =>
    let d := v.point b - v.point a
    [[-d.x / length, -d.y / length, d.x / length, d.y / length]]
  | radius r _ => [r.gradient v]
  | radiusRatio r s ratio => [r.gradient v ++ (s.gradient v).map (-ratio * ·)]
  | parallel a b c d =>
    let e := v.point b - v.point a
    let f := v.point d - v.point c
    [byEnds ⟨f.y, -f.x⟩ ⟨-e.y, e.x⟩]
  | perpendicular a b c d => [byEnds (v.point d - v.point c) (v.point b - v.point a)]
  | heading _ _ cosine sine => [[sine, -cosine, -sine, cosine]]
  | turn a b c d cosine sine =>
    let e := v.point b - v.point a
    let f := v.point d - v.point c
    let crossed := byEnds ⟨f.y, -f.x⟩ ⟨-e.y, e.x⟩
    let dotted := byEnds f e
    [List.zipWith (fun p q => p * cosine - q * sine) crossed dotted]
  | coincident _ _ => [[1, 0, -1, 0], [0, 1, 0, -1]]
  | onLine p a b =>
    let u := v.point p - v.point a
    let w := v.point b - v.point a
    [[w.y, -w.x, -w.y + u.y, w.x - u.x, -u.y, u.x]]
  | onCircle p center _ =>
    let u := (v.point p - v.point center).direction
    [[u.x, u.y, -u.x, -u.y, -1]]
  | onArc p center start =>
    let u := (v.point p - v.point center).direction
    let w := (v.point start - v.point center).direction
    [[u.x, u.y, w.x - u.x, w.y - u.y, -w.x, -w.y]]
  | midpoint _ _ _ =>
    [[1, 0, 1, 0, -Scalar.two, 0], [0, 1, 0, 1, 0, -Scalar.two]]
  | reflected p q a b =>
    let u := (v.point p + v.point q).scale Scalar.half - v.point a
    let w := v.point b - v.point a
    let e := v.point q - v.point p
    let half := Scalar.half
    [[half * w.y, -(half * w.x), half * w.y, -(half * w.x), -w.y + u.y, w.x - u.x, -u.y, u.x],
      [-w.x, -w.y, w.x, w.y, -e.x, -e.y, e.x, e.y]]
  | level _ _ => [[-1, 1]]
  | between _ _ _ fraction =>
    [[1, 0, fraction - 1, 0, -fraction, 0], [0, 1, 0, fraction - 1, 0, -fraction]]
  | lengthRatio a b c d ratio =>
    let u := (v.point b - v.point a).direction
    let w := (v.point d - v.point c).direction
    [[-u.x, -u.y, u.x, u.y, ratio * w.x, ratio * w.y, -(ratio * w.x), -(ratio * w.y)]]
  | arc start center finish =>
    let u := (v.point start - v.point center).direction
    let w := (v.point finish - v.point center).direction
    [[-u.x, -u.y, u.x - w.x, u.y - w.y, w.x, w.y]]

theorem length_residual (v : Valuation α) (relation : Relation α) :
    (relation.residual v).length = relation.rows := by
  cases relation <;> rfl

theorem length_gradient (v : Valuation α) (relation : Relation α) :
    (relation.gradient v).length = relation.rows := by
  cases relation <;> rfl

end Relation

end PlaneSketch
