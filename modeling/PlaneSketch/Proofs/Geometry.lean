import Mathlib
import PlaneSketch.Proofs.Blocks
import PlaneSketch.Scalar.Real

/-!
Residuals vanish exactly when the geometry is right.

The plane is that of the complex numbers, with its distances, angles, lines and reflections.

* `Means` is the table of meanings: for each kind and form of constraint, what a valuation has to
  satisfy. `Asks` takes in arcs.
* `block_vanishes_iff`: in a drawing without flaws every block has such a meaning, and its residuals
  are all zero exactly when the meaning holds.
-/

open EuclideanGeometry

namespace PlaneSketch

/-! ### The plane -/

section Plane

variable {z w p q a b : ℂ}

theorem complex_eq_iff : z = w ↔ z.re - w.re = 0 ∧ z.im - w.im = 0 := by
  rw [Complex.ext_iff, sub_eq_zero, sub_eq_zero]

/-- Two vectors are dependent exactly when they span no area. -/
theorem dependent_iff : ¬LinearIndependent ℝ ![z, w] ↔ z.re * w.im - z.im * w.re = 0 := by
  by_cases zero : z = 0
  · subst zero
    simp only [Complex.zero_re, Complex.zero_im, zero_mul, sub_self, iff_true]
    exact fun independent => independent.ne_zero 0 rfl
  · rw [LinearIndependent.pair_iff' zero]
    simp only [ne_eq, not_forall, not_not]
    constructor
    · rintro ⟨r, rfl⟩
      simp only [Complex.smul_re, Complex.smul_im, smul_eq_mul]
      ring
    · intro flat
      have positive : z.re * z.re + z.im * z.im ≠ 0 := by
        rw [← Complex.normSq_apply]
        exact fun none => zero (Complex.normSq_eq_zero.mp none)
      -- the multiple is the projection of one vector onto the other
      refine ⟨(z.re * w.re + z.im * w.im) / (z.re * z.re + z.im * z.im), ?_⟩
      rw [complex_eq_iff, Complex.smul_re, Complex.smul_im, smul_eq_mul, smul_eq_mul, sub_eq_zero,
        sub_eq_zero, div_mul_eq_mul_div, div_mul_eq_mul_div, div_eq_iff positive,
        div_eq_iff positive]
      constructor
      · linear_combination z.im * flat
      · linear_combination (-z.re) * flat

/-- A point lies on the line through two others exactly when it is seen from one of them in the
direction of the other. -/
theorem mem_line_iff (apart : a ≠ b) :
    p ∈ line[ℝ, a, b] ↔ (p - a).re * (b - a).im - (p - a).im * (b - a).re = 0 := by
  have direction : b - a ≠ 0 := sub_ne_zero.mpr apart.symm
  have flip : (p - a).re * (b - a).im - (p - a).im * (b - a).re = 0 ↔
      (b - a).re * (p - a).im - (b - a).im * (p - a).re = 0 := by
    constructor <;> intro flat <;> linear_combination -flat
  have along : (p - a) +ᵥ a ∈ line[ℝ, a, b] ↔ ∃ r : ℝ, r • (b -ᵥ a) = p - a :=
    vadd_left_mem_affineSpan_pair
  rw [vadd_eq_add, sub_add_cancel, vsub_eq_sub] at along
  rw [along, flip, ← dependent_iff, LinearIndependent.pair_iff' direction]
  simp only [ne_eq, not_forall, not_not]

theorem inner_eq : inner ℝ z w = z.re * w.re + z.im * w.im := by
  rw [Complex.inner, Complex.mul_re, Complex.conj_re, Complex.conj_im]
  ring

/-- A point is the image of another in a line exactly when the middle between them lies on the line
and the way between them is across it. -/
theorem reflection_iff :
    q = reflection line[ℝ, a, b] p ↔
      midpoint ℝ p q ∈ line[ℝ, a, b] ∧ inner ℝ (q - p) (b - a) = 0 := by
  have across : ∀ v : ℂ, v ∈ (line[ℝ, a, b]).directionᗮ ↔ inner ℝ v (b - a) = 0 := by
    intro v
    rw [direction_affineSpan, vectorSpan_pair_rev, vsub_eq_sub,
      Submodule.mem_orthogonal_singleton_iff_inner_left]
  constructor
  · intro image
    obtain ⟨foot, isFoot⟩ : ∃ foot : ℂ, foot = orthogonalProjection line[ℝ, a, b] p := ⟨_, rfl⟩
    have doubled : q = foot - p + foot := by
      rw [image, reflection_apply', ← isFoot]
      rfl
    have middle : midpoint ℝ p q = foot := by
      rw [midpoint_eq_smul_add, doubled, add_comm p, sub_add_eq_add_sub, sub_add_cancel,
        ← two_smul ℝ, smul_smul]
      norm_num
    refine ⟨?_, ?_⟩
    · rw [middle, isFoot]
      exact orthogonalProjection_mem p
    · have way : q - p = (-2 : ℝ) • (p -ᵥ foot) := by
        rw [doubled, vsub_eq_sub, neg_smul, two_smul]
        ring
      rw [← across, way, isFoot]
      exact Submodule.smul_mem _ _ (vsub_orthogonalProjection_mem_direction_orthogonal _ p)
  · rintro ⟨onLine, perpendicular⟩
    have offset : p = (-1 / 2 : ℝ) • (q - p) +ᵥ midpoint ℝ p q := by
      rw [midpoint_eq_smul_add, vadd_eq_add, invOf_eq_inv]
      module
    have image := reflection_orthogonal_vadd onLine
      (Submodule.smul_mem _ (-1 / 2 : ℝ) ((across _).mpr perpendicular))
    rw [← offset] at image
    rw [image, midpoint_eq_smul_add, vadd_eq_add, invOf_eq_inv]
    module

end Plane

/-! ### When a relation holds -/

/-- The position of a point in the plane. -/
def Valuation.place (v : Valuation ℝ) (p : Handle) : ℂ := ⟨v ⟨p, .x⟩, v ⟨p, .y⟩⟩

/-- The size of a radius: a number of a circle, a distance for an arc. -/
noncomputable def Radius.extent (v : Valuation ℝ) : Radius → ℝ
  | circle c => v ⟨c, .r⟩
  | arc start center => dist (v.place start) (v.place center)

/-- The point on the unit circle at an angle in degrees. -/
noncomputable def rotation (degrees : ℝ) : ℂ :=
  Complex.exp (radians degrees * Complex.I)

/-- All residuals of the relation are zero. -/
def Relation.Vanishes (v : Valuation ℝ) (relation : Relation ℝ) : Prop :=
  ∀ r ∈ relation.residual v, r = 0

section Relations

variable (v : Valuation ℝ) (a b c d p q m start center finish circle : Handle)

theorem norm_eq_dist : (v.point p - v.point q).norm = dist (v.place p) (v.place q) := by
  rw [Complex.dist_eq, Complex.norm_def, Complex.normSq_apply]
  rfl

theorem size_eq_extent (r : Radius) : r.size v = r.extent v := by
  cases r with
  | circle c => rfl
  | arc start center => exact norm_eq_dist v start center

theorem vanishes_fixed (position : Vec2 ℝ) :
    (Relation.fixed p position).Vanishes v ↔ v.place p = ⟨position.x, position.y⟩ := by
  rw [complex_eq_iff]
  simp [Relation.Vanishes, Relation.residual, Valuation.place, Valuation.point]

theorem vanishes_offset (displacement : Vec2 ℝ) :
    (Relation.offset a b displacement).Vanishes v ↔
      v.place b - v.place a = ⟨displacement.x, displacement.y⟩ := by
  rw [complex_eq_iff]
  simp [Relation.Vanishes, Relation.residual, Valuation.place, Valuation.point]

/-- A distance is measured by its square, which has one root that is a length. -/
theorem vanishes_distance {length : ℝ} (positive : 0 < length) :
    (Relation.distance a b length).Vanishes v ↔ dist (v.place a) (v.place b) = length := by
  have square : dist (v.place a) (v.place b) * dist (v.place a) (v.place b) =
      (v.point b - v.point a).x * (v.point b - v.point a).x +
        (v.point b - v.point a).y * (v.point b - v.point a).y := by
    rw [dist_comm, ← norm_eq_dist, Vec2.norm_mul_norm]
  simp only [Relation.Vanishes, Relation.residual, List.mem_singleton, forall_eq]
  rw [← square, div_eq_zero_iff, or_iff_left (by simpa using positive.ne'), sub_eq_zero]
  exact mul_self_inj dist_nonneg positive.le

theorem vanishes_radius (r : Radius) (size : ℝ) :
    (Relation.radius r size).Vanishes v ↔ r.extent v = size := by
  simp [Relation.Vanishes, Relation.residual, size_eq_extent, sub_eq_zero]

theorem vanishes_radiusRatio (r s : Radius) (ratio : ℝ) :
    (Relation.radiusRatio r s ratio).Vanishes v ↔ r.extent v = ratio * s.extent v := by
  simp [Relation.Vanishes, Relation.residual, size_eq_extent, sub_eq_zero]

theorem vanishes_parallel :
    (Relation.parallel a b c d).Vanishes v ↔
      ¬LinearIndependent ℝ ![v.place b - v.place a, v.place d - v.place c] := by
  rw [dependent_iff]
  simp [Relation.Vanishes, Relation.residual, Vec2.cross, Valuation.place, Valuation.point]

theorem vanishes_perpendicular :
    (Relation.perpendicular a b c d).Vanishes v ↔
      inner ℝ (v.place b - v.place a) (v.place d - v.place c) = 0 := by
  rw [inner_eq]
  simp [Relation.Vanishes, Relation.residual, Vec2.dot, Valuation.place, Valuation.point]

theorem rotation_re (degrees : ℝ) :
    (rotation degrees).re = Real.cos (radians degrees) := Complex.exp_ofReal_mul_I_re _

theorem rotation_im (degrees : ℝ) :
    (rotation degrees).im = Real.sin (radians degrees) := Complex.exp_ofReal_mul_I_im _

theorem vanishes_heading (degrees : ℝ) :
    (Relation.heading a b (Real.cos (radians degrees))
        (Real.sin (radians degrees))).Vanishes v ↔
      ¬LinearIndependent ℝ ![rotation degrees, v.place b - v.place a] := by
  rw [dependent_iff, rotation_re, rotation_im]
  simp only [Relation.Vanishes, Relation.residual, List.mem_singleton, forall_eq]
  exact Eq.congr_left (by simp [Valuation.place, Valuation.point]; ring)

/-- The turned first direction spans no area with the second. -/
theorem vanishes_turn (degrees : ℝ) :
    (Relation.turn a b c d (Real.cos (radians degrees))
        (Real.sin (radians degrees))).Vanishes v ↔
      ¬LinearIndependent ℝ
        ![rotation degrees * (v.place b - v.place a), v.place d - v.place c] := by
  rw [dependent_iff, Complex.mul_re, Complex.mul_im, rotation_re, rotation_im]
  simp only [Relation.Vanishes, Relation.residual, List.mem_singleton, forall_eq]
  refine Eq.congr_left ?_
  simp [Vec2.cross, Vec2.dot, Valuation.place, Valuation.point]
  ring

theorem vanishes_coincident :
    (Relation.coincident p q : Relation ℝ).Vanishes v ↔ v.place p = v.place q := by
  rw [complex_eq_iff]
  simp [Relation.Vanishes, Relation.residual, Valuation.place, Valuation.point]

theorem vanishes_onLine :
    (Relation.onLine p a b : Relation ℝ).Vanishes v ↔
      (v.place a ≠ v.place b → v.place p ∈ line[ℝ, v.place a, v.place b]) := by
  have flat : (Relation.onLine p a b : Relation ℝ).Vanishes v ↔
      (v.place p - v.place a).re * (v.place b - v.place a).im -
        (v.place p - v.place a).im * (v.place b - v.place a).re = 0 := by
    simp [Relation.Vanishes, Relation.residual, Vec2.cross, Valuation.place, Valuation.point]
  rw [flat]
  by_cases apart : v.place a = v.place b
  · simp [apart]
  · rw [← mem_line_iff apart]
    exact ⟨fun onLine _ => onLine, fun onLine => onLine apart⟩

theorem vanishes_onCircle :
    (Relation.onCircle p center circle : Relation ℝ).Vanishes v ↔
      dist (v.place p) (v.place center) = v ⟨circle, .r⟩ := by
  simp [Relation.Vanishes, Relation.residual, norm_eq_dist, sub_eq_zero]

theorem vanishes_onArc :
    (Relation.onArc p center start : Relation ℝ).Vanishes v ↔
      dist (v.place p) (v.place center) = dist (v.place start) (v.place center) := by
  simp [Relation.Vanishes, Relation.residual, norm_eq_dist, sub_eq_zero]

theorem midpoint_re_im (z w : ℂ) :
    (midpoint ℝ z w).re = (z.re + w.re) / 2 ∧ (midpoint ℝ z w).im = (z.im + w.im) / 2 := by
  rw [midpoint_eq_smul_add, invOf_eq_inv, Complex.smul_re, Complex.smul_im, Complex.add_re,
    Complex.add_im, smul_eq_mul, smul_eq_mul]
  constructor <;> ring

theorem vanishes_midpoint :
    (Relation.midpoint p q m : Relation ℝ).Vanishes v ↔
      v.place m = midpoint ℝ (v.place p) (v.place q) := by
  obtain ⟨re, im⟩ := midpoint_re_im (v.place p) (v.place q)
  rw [complex_eq_iff, re, im]
  simp only [Relation.Vanishes, Relation.residual, List.mem_cons, List.not_mem_nil, or_false,
    forall_eq_or_imp, forall_eq, Vec2.sub_x, Vec2.sub_y, Vec2.add_x, Vec2.add_y, Vec2.scale_x,
    Vec2.scale_y, Scalar.two_real, Valuation.point, Valuation.place]
  constructor <;> rintro ⟨zeroX, zeroY⟩ <;> constructor <;> linarith

/-- The middle is on the axis and the way between the points across it. -/
theorem vanishes_reflected :
    (Relation.reflected p q a b : Relation ℝ).Vanishes v ↔
      (v.place a ≠ v.place b →
        v.place q = reflection line[ℝ, v.place a, v.place b] (v.place p)) := by
  obtain ⟨re, im⟩ := midpoint_re_im (v.place p) (v.place q)
  have rows : (Relation.reflected p q a b : Relation ℝ).Vanishes v ↔
      (midpoint ℝ (v.place p) (v.place q) - v.place a).re * (v.place b - v.place a).im -
        (midpoint ℝ (v.place p) (v.place q) - v.place a).im * (v.place b - v.place a).re = 0 ∧
      inner ℝ (v.place q - v.place p) (v.place b - v.place a) = 0 := by
    rw [inner_eq, Complex.sub_re (midpoint ℝ _ _), Complex.sub_im (midpoint ℝ _ _), re, im]
    simp only [Relation.Vanishes, Relation.residual, List.mem_cons, List.not_mem_nil, or_false,
      forall_eq_or_imp, forall_eq]
    refine and_congr (Eq.congr_left ?_) Iff.rfl
    simp only [Vec2.cross, Vec2.sub_x, Vec2.sub_y, Vec2.add_x, Vec2.add_y, Vec2.scale_x,
      Vec2.scale_y, Scalar.half_real, Valuation.point, Valuation.place, Complex.sub_re,
      Complex.sub_im]
    ring
  rw [rows]
  by_cases apart : v.place a = v.place b
  · simp [apart]
  · rw [← mem_line_iff apart, ← reflection_iff]
    exact ⟨fun image _ => image, fun image => image apart⟩

theorem vanishes_level (u w : Variable) :
    (Relation.level u w : Relation ℝ).Vanishes v ↔ v u = v w := by
  simp [Relation.Vanishes, Relation.residual, sub_eq_zero, eq_comm]

theorem vanishes_between (fraction : ℝ) :
    (Relation.between p a b fraction).Vanishes v ↔
      v.place p = v.place a + fraction • (v.place b - v.place a) := by
  rw [complex_eq_iff, Complex.add_re, Complex.add_im, Complex.smul_re, Complex.smul_im]
  simp only [Relation.Vanishes, Relation.residual, List.mem_cons, List.not_mem_nil, or_false,
    forall_eq_or_imp, forall_eq, Vec2.sub_x, Vec2.sub_y, Vec2.scale_x, Vec2.scale_y, smul_eq_mul,
    Complex.sub_re, Complex.sub_im, Valuation.point, Valuation.place]
  constructor <;> rintro ⟨zeroX, zeroY⟩ <;> constructor <;> linarith

theorem vanishes_lengthRatio (ratio : ℝ) :
    (Relation.lengthRatio a b c d ratio).Vanishes v ↔
      dist (v.place a) (v.place b) = ratio * dist (v.place c) (v.place d) := by
  simp [Relation.Vanishes, Relation.residual, norm_eq_dist, sub_eq_zero, dist_comm]

theorem vanishes_arc :
    (Relation.arc start center finish : Relation ℝ).Vanishes v ↔
      dist (v.place finish) (v.place center) = dist (v.place start) (v.place center) := by
  simp [Relation.Vanishes, Relation.residual, norm_eq_dist, sub_eq_zero]

end Relations

namespace Sketch

/-! ### The table of meanings -/

/-- The points whose distance is measured: the ends of a line, or two points. -/
inductive Measured (sketch : Sketch ℝ) (references : List Handle) : Handle → Handle → Prop
  | line {l a b : Handle} : references = [l] → sketch.Built l .line [a, b] →
      Measured sketch references a b
  | points {a b : Handle} : references = [a, b] → sketch.Point a → sketch.Point b →
      Measured sketch references a b

/-- What a constraint means for the positions and radii of a drawing. A relation to a line asks for
two different ends. -/
inductive Means (sketch : Sketch ℝ) (v : Valuation ℝ) (c : Constraint ℝ) : Prop → Prop
  | fixed {p : Handle} : c.kind = .fixed → c.references = [p] → sketch.Point p →
      Means sketch v c (v.place p = ⟨c.position.x, c.position.y⟩)
  | length {a b : Handle} {length : ℝ} : c.kind = .length → sketch.Measured c.references a b →
      c.amount = some length → c.cardinality = none →
      Means sketch v c (dist (v.place a) (v.place b) = length)
  /-- to the right, or to the left when negated -/
  | leftRight {a b : Handle} {length : ℝ} {negated : Bool} : c.kind = .length →
      sketch.Measured c.references a b → c.amount = some length →
      c.cardinality = some ⟨.leftRight, negated⟩ →
      Means sketch v c (v.place b - v.place a = ⟨if negated then -length else length, 0⟩)
  /-- downwards, or upwards when negated -/
  | topBottom {a b : Handle} {length : ℝ} {negated : Bool} : c.kind = .length →
      sketch.Measured c.references a b → c.amount = some length →
      c.cardinality = some ⟨.topBottom, negated⟩ →
      Means sketch v c (v.place b - v.place a = ⟨0, if negated then length else -length⟩)
  | radius {h : Handle} {r : Radius} {size : ℝ} : c.kind = .radius → c.references = [h] →
      sketch.Round h r → c.amount = some size → Means sketch v c (r.extent v = size)
  | radiusEqual {g h : Handle} {r s : Radius} : c.kind = .radiusEqual → c.references = [g, h] →
      sketch.Round g r → sketch.Round h s →
      Means sketch v c (r.extent v = c.amount.getD 1 * s.extent v)
  | parallel {k l a b e f : Handle} : c.kind = .parallel → c.references = [k, l] →
      sketch.Built k .line [a, b] → sketch.Built l .line [e, f] →
      Means sketch v c (¬LinearIndependent ℝ ![v.place b - v.place a, v.place f - v.place e])
  | perpendicular {k l a b e f : Handle} : c.kind = .perpendicular → c.references = [k, l] →
      sketch.Built k .line [a, b] → sketch.Built l .line [e, f] →
      Means sketch v c (inner ℝ (v.place b - v.place a) (v.place f - v.place e) = 0)
  /-- the line has the direction of the first axis turned by the angle -/
  | heading {l a b : Handle} {degrees : ℝ} : c.kind = .angle → c.references = [l] →
      sketch.Built l .line [a, b] → c.amount = some degrees →
      Means sketch v c (¬LinearIndependent ℝ ![rotation degrees, v.place b - v.place a])
  /-- the second line has the direction of the first turned by the angle -/
  | turn {k l a b e f : Handle} {degrees : ℝ} : c.kind = .angle → c.references = [k, l] →
      sketch.Built k .line [a, b] → sketch.Built l .line [e, f] → c.amount = some degrees →
      Means sketch v c (¬LinearIndependent ℝ
        ![rotation degrees * (v.place b - v.place a), v.place f - v.place e])
  | coincident {p q : Handle} : c.kind = .coincident → c.references = [p, q] → sketch.Point p →
      sketch.Point q → Means sketch v c (v.place p = v.place q)
  | onLine {p l a b : Handle} : c.kind = .coincident → c.references = [p, l] → sketch.Point p →
      sketch.Built l .line [a, b] → Means sketch v c
        (v.place a ≠ v.place b → v.place p ∈ line[ℝ, v.place a, v.place b])
  | onCircle {p k center : Handle} : c.kind = .coincident → c.references = [p, k] →
      sketch.Point p → sketch.Built k .circle [center] →
      Means sketch v c (dist (v.place p) (v.place center) = v ⟨k, .r⟩)
  | onArc {p k start center finish : Handle} : c.kind = .coincident → c.references = [p, k] →
      sketch.Point p → sketch.Built k .arc [start, center, finish] → Means sketch v c
        (dist (v.place p) (v.place center) = dist (v.place start) (v.place center))
  | midpoint {p q m : Handle} : c.kind = .symmetric → c.references = [p, q, m] →
      sketch.Point p → sketch.Point q → sketch.Point m →
      Means sketch v c (v.place m = midpoint ℝ (v.place p) (v.place q))
  | mirrored {p q l a b : Handle} : c.kind = .symmetric → c.references = [p, q, l] →
      sketch.Point p → sketch.Point q → sketch.Built l .line [a, b] → Means sketch v c
        (v.place a ≠ v.place b →
          v.place q = reflection line[ℝ, v.place a, v.place b] (v.place p))
  | horizontal {l a b : Handle} {negated : Bool} : c.kind = .alongAxis → c.references = [l] →
      sketch.Built l .line [a, b] → c.cardinality = some ⟨.leftRight, negated⟩ →
      Means sketch v c ((v.place b - v.place a).im = 0)
  | vertical {l a b : Handle} {negated : Bool} : c.kind = .alongAxis → c.references = [l] →
      sketch.Built l .line [a, b] → c.cardinality = some ⟨.topBottom, negated⟩ →
      Means sketch v c ((v.place b - v.place a).re = 0)
  | between {p l a b : Handle} {fraction : ℝ} : c.kind = .lerp → c.references = [p, l] →
      sketch.Point p → sketch.Built l .line [a, b] → c.amount = some fraction →
      Means sketch v c (v.place p = v.place a + fraction • (v.place b - v.place a))
  | equalLength {k l a b e f : Handle} : c.kind = .equalLength → c.references = [k, l] →
      sketch.Built k .line [a, b] → sketch.Built l .line [e, f] → Means sketch v c
        (dist (v.place a) (v.place b) = c.amount.getD 1 * dist (v.place e) (v.place f))

/-- What the owner of a block asks for: an arc that its ends are equally far from its centre, a
constraint what it means. -/
inductive Asks (sketch : Sketch ℝ) (v : Valuation ℝ) : Owner → Prop → Prop
  | arc {h start center finish : Handle} : sketch.Built h .arc [start, center, finish] →
      Asks sketch v (.arc h)
        (dist (v.place finish) (v.place center) = dist (v.place start) (v.place center))
  | constraint {h : Handle} {kind : ConstraintKind} {c : Constraint ℝ} {meaning : Prop} :
      sketch.constraints.get? h = some c → c.kind = kind → sketch.Means v c meaning →
      Asks sketch v (.constraint h kind) meaning

section Meanings

variable {sketch : Sketch ℝ} {v : Valuation ℝ} {c : Constraint ℝ} {meaning : Prop}
  {relation : Relation ℝ}

theorem Measured.demands {a b : Handle} (kind : c.kind = .length)
    (measured : sketch.Measured c.references a b) :
    sketch.Demands c (lengthRelation a b c.cardinality c.measure) := by
  cases measured with
  | line references built => exact .lengthOfLine kind references built
  | points references first second => exact .lengthOfPoints kind references first second

theorem vanishes_length (a b : Handle) {length : ℝ} (sign : 0 ≤ length) :
    (lengthRelation a b none length).Vanishes v ↔ dist (v.place a) (v.place b) = length := by
  by_cases zero : length = 0
  · subst zero
    have coincide : lengthRelation a b none (0 : ℝ) = .offset a b ⟨0, 0⟩ := by
      simp [lengthRelation, displacement]
    have origin : (⟨0, 0⟩ : ℂ) = 0 := rfl
    rw [coincide, vanishes_offset, origin, sub_eq_zero, dist_eq_zero]
    exact eq_comm
  · have measured : lengthRelation a b none length = .distance a b length := by
      simp [lengthRelation, zero]
    rw [measured, vanishes_distance v a b (lt_of_le_of_ne sign (Ne.symm zero))]

theorem lengthRelation_some (a b : Handle) (cardinality : Cardinality) (length : ℝ) :
    lengthRelation a b (some cardinality) length =
      .offset a b (displacement (some cardinality) length) := by
  simp [lengthRelation]

theorem nonneg_of_faultless {length : ℝ} (kind : c.kind = .length) (amount : c.amount = some length)
    (faultless : valueFault? c = none) : 0 ≤ length := by
  simp only [valueFault?, kind, amount] at faultless
  by_contra negative
  rw [if_pos (by simpa using negative)] at faultless
  cases faultless

theorem measure_of_amount {value : ℝ} (amount : c.amount = some value) : c.measure = value := by
  simp [Constraint.measure, amount]

/-- **The relation of a constraint vanishes exactly when the meaning of the constraint holds.** -/
theorem Means.vanishes_iff (means : sketch.Means v c meaning) (faultless : valueFault? c = none) :
    ∃ relation, sketch.Demands c relation ∧ (relation.Vanishes v ↔ meaning) := by
  cases means with
  | fixed kind references point =>
    exact ⟨_, .fixed kind references point, vanishes_fixed v _ _⟩
  | @length a b length kind measured amount cardinality =>
    refine ⟨_, measured.demands kind, ?_⟩
    rw [cardinality, measure_of_amount amount]
    exact vanishes_length a b (nonneg_of_faultless kind amount faultless)
  | @leftRight a b length negated kind measured amount cardinality =>
    refine ⟨_, measured.demands kind, ?_⟩
    rw [cardinality, measure_of_amount amount, lengthRelation_some, vanishes_offset]
    cases negated <;> simp [displacement]
  | @topBottom a b length negated kind measured amount cardinality =>
    refine ⟨_, measured.demands kind, ?_⟩
    rw [cardinality, measure_of_amount amount, lengthRelation_some, vanishes_offset]
    cases negated <;> simp [displacement]
  | radius kind references round amount =>
    refine ⟨_, .radius kind references round, ?_⟩
    rw [measure_of_amount amount, vanishes_radius]
  | radiusEqual kind references first second =>
    exact ⟨_, .radiusEqual kind references first second, vanishes_radiusRatio v _ _ _⟩
  | parallel kind references first second =>
    exact ⟨_, .parallel kind references first second, vanishes_parallel v _ _ _ _⟩
  | perpendicular kind references first second =>
    exact ⟨_, .perpendicular kind references first second, vanishes_perpendicular v _ _ _ _⟩
  | heading kind references built amount =>
    refine ⟨_, .heading kind references built rfl, ?_⟩
    rw [measure_of_amount amount, vanishes_heading]
  | turn kind references first second amount =>
    refine ⟨_, .turn kind references first second rfl, ?_⟩
    rw [measure_of_amount amount, vanishes_turn]
  | coincident kind references first second =>
    exact ⟨_, .coincident kind references first second, vanishes_coincident v _ _⟩
  | onLine kind references point built =>
    exact ⟨_, .onLine kind references point built, vanishes_onLine v _ _ _⟩
  | onCircle kind references point built =>
    exact ⟨_, .onCircle kind references point built, vanishes_onCircle v _ _ _⟩
  | onArc kind references point built =>
    exact ⟨_, .onArc kind references point built, vanishes_onArc v _ _ _⟩
  | midpoint kind references first second middle =>
    exact ⟨_, .midpoint kind references first second middle, vanishes_midpoint v _ _ _⟩
  | mirrored kind references first second built =>
    exact ⟨_, .reflected kind references first second built, vanishes_reflected v _ _ _ _⟩
  | horizontal kind references built cardinality =>
    refine ⟨_, .horizontal kind references built cardinality, ?_⟩
    rw [vanishes_level, Complex.sub_im, sub_eq_zero]
    exact eq_comm
  | vertical kind references built cardinality =>
    refine ⟨_, .vertical kind references built cardinality, ?_⟩
    rw [vanishes_level, Complex.sub_re, sub_eq_zero]
    exact eq_comm
  | between kind references point built amount =>
    refine ⟨_, .between kind references point built, ?_⟩
    rw [measure_of_amount amount, vanishes_between]
  | equalLength kind references first second =>
    exact ⟨_, .equalLength kind references first second, vanishes_lengthRatio v _ _ _ _ _⟩

/-- Every amount that a meaning mentions is given. -/
theorem amount_of_faultless (measured : c.kind.isMeasured = true)
    (faultless : valueFault? c = none) : ∃ value, c.amount = some value := by
  cases amount : c.amount with
  | some value => exact ⟨value, rfl⟩
  | none =>
    cases kind : c.kind <;> simp [kind, ConstraintKind.isMeasured] at measured <;>
      simp [valueFault?, kind, amount] at faultless

/-- Every constraint that stands for a relation has a meaning. -/
theorem Demands.exists_means (demands : sketch.Demands c relation)
    (faultless : valueFault? c = none) (v : Valuation ℝ) :
    ∃ meaning, sketch.Means v c meaning := by
  have ofLength : ∀ {a b : Handle}, c.kind = .length → sketch.Measured c.references a b →
      ∃ meaning, sketch.Means v c meaning := by
    intro a b kind measured
    obtain ⟨length, amount⟩ := amount_of_faultless (by rw [kind]; rfl) faultless
    rcases cardinality : c.cardinality with - | ⟨axis, negated⟩
    · exact ⟨_, .length kind measured amount cardinality⟩
    · cases axis with
      | leftRight => exact ⟨_, .leftRight kind measured amount cardinality⟩
      | topBottom => exact ⟨_, .topBottom kind measured amount cardinality⟩
  cases demands with
  | fixed kind references point => exact ⟨_, .fixed kind references point⟩
  | lengthOfLine kind references built => exact ofLength kind (.line references built)
  | lengthOfPoints kind references first second =>
    exact ofLength kind (.points references first second)
  | radius kind references round =>
    obtain ⟨size, amount⟩ := amount_of_faultless (by rw [kind]; rfl) faultless
    exact ⟨_, .radius kind references round amount⟩
  | radiusEqual kind references first second =>
    exact ⟨_, .radiusEqual kind references first second⟩
  | parallel kind references first second => exact ⟨_, .parallel kind references first second⟩
  | perpendicular kind references first second =>
    exact ⟨_, .perpendicular kind references first second⟩
  | heading kind references built _ =>
    obtain ⟨degrees, amount⟩ := amount_of_faultless (by rw [kind]; rfl) faultless
    exact ⟨_, .heading kind references built amount⟩
  | turn kind references first second _ =>
    obtain ⟨degrees, amount⟩ := amount_of_faultless (by rw [kind]; rfl) faultless
    exact ⟨_, .turn kind references first second amount⟩
  | coincident kind references first second => exact ⟨_, .coincident kind references first second⟩
  | onLine kind references point built => exact ⟨_, .onLine kind references point built⟩
  | onCircle kind references point built => exact ⟨_, .onCircle kind references point built⟩
  | onArc kind references point built => exact ⟨_, .onArc kind references point built⟩
  | midpoint kind references first second middle =>
    exact ⟨_, .midpoint kind references first second middle⟩
  | reflected kind references first second built =>
    exact ⟨_, .mirrored kind references first second built⟩
  | horizontal kind references built cardinality =>
    exact ⟨_, .horizontal kind references built cardinality⟩
  | vertical kind references built cardinality =>
    exact ⟨_, .vertical kind references built cardinality⟩
  | between kind references point built =>
    obtain ⟨fraction, amount⟩ := amount_of_faultless (by rw [kind]; rfl) faultless
    exact ⟨_, .between kind references point built amount⟩
  | equalLength kind references first second =>
    exact ⟨_, .equalLength kind references first second⟩

theorem Demands.unique {relation' : Relation ℝ} (demands : sketch.Demands c relation)
    (demands' : sketch.Demands c relation') : relation = relation' := by
  have compiled := demands.compiles ⟨0, 0⟩
  rw [demands'.compiles] at compiled
  cases compiled
  rfl

theorem Built.parts_eq {h : Handle} {kind : FeatureKind} {parts parts' : List Handle}
    (built : sketch.Built h kind parts) (built' : sketch.Built h kind parts') : parts = parts' := by
  obtain ⟨feature, found, -, rfl⟩ := built.feature
  obtain ⟨feature', found', -, rfl⟩ := built'.feature
  cases found.symm.trans found'
  rfl

end Meanings

/-- **A block vanishes exactly when its geometric relation holds.** In a drawing without flaws, the
owner of every block has a meaning, and for every assignment of real numbers to the variables all
rows of the block are zero exactly when this meaning holds. -/
theorem block_vanishes_iff {sketch : Sketch ℝ} (flawless : sketch.flaws = [])
    {start pool : Pool ℝ} {blocks : List (Block ℝ)}
    (compiled : sketch.compile start [] [] = .ok (pool, blocks)) {block : Block ℝ}
    (member : block ∈ blocks) (v : Valuation ℝ) :
    (∃ meaning, sketch.Asks v block.owner meaning) ∧
      ∀ meaning, sketch.Asks v block.owner meaning →
        ((∀ r ∈ block.residual v, r = 0) ↔ meaning) := by
  rw [← compiled_of_flawless flawless] at compiled
  cases stands_of_compiled compiled member with
  | arc built =>
    refine ⟨⟨_, .arc built⟩, ?_⟩
    intro meaning asked
    cases asked with
    | arc built' =>
      cases built.parts_eq built'
      exact vanishes_arc v _ _ _
  | constraint found fit demands =>
    obtain ⟨meaning, means⟩ := demands.exists_means fit.values v
    refine ⟨⟨meaning, .constraint found rfl means⟩, ?_⟩
    intro meaning asked
    cases asked with
    | constraint found' _ means =>
      cases found.symm.trans found'
      obtain ⟨relation', demands', zero⟩ := means.vanishes_iff fit.values
      cases demands.unique demands'
      exact zero

/-- Two points that are each other's image in a line. -/
noncomputable def butterfly : Sketch ℝ where
  features := ⟨[
    ⟨some (.point 0 1 false), 0⟩, ⟨some (.point 0 (-1) false), 0⟩, ⟨some (.point 0 0 false), 0⟩,
    ⟨some (.point 1 0 false), 0⟩, ⟨some (.line ⟨2, 0⟩ ⟨3, 0⟩ false), 0⟩]⟩
  constraints := ⟨[⟨some (.plain .symmetric [⟨0, 0⟩, ⟨1, 0⟩, ⟨4, 0⟩] none none), 0⟩]⟩
  groups := []

/-- The block of the mirror image. -/
def butterflyBlock : Block ℝ :=
  ⟨.constraint ⟨0, 0⟩ .symmetric, .reflected ⟨0, 0⟩ ⟨1, 0⟩ ⟨2, 0⟩ ⟨3, 0⟩⟩

theorem butterfly_vanishes_iff :
    butterfly.flaws = [] ∧
    butterfly.compile (Pool.ofSketch butterfly) [] [] =
      .ok (Pool.ofSketch butterfly, [butterflyBlock]) ∧
    (∃ meaning, butterfly.Asks (Pool.ofSketch butterfly).valuation butterflyBlock.owner meaning) ∧
    ∀ meaning, butterfly.Asks (Pool.ofSketch butterfly).valuation butterflyBlock.owner meaning →
      ((∀ r ∈ butterflyBlock.residual (Pool.ofSketch butterfly).valuation, r = 0) ↔ meaning) := by
  have flawless : butterfly.flaws = [] := by cbv
  have compiled : butterfly.compile (Pool.ofSketch butterfly) [] [] =
      .ok (Pool.ofSketch butterfly, [butterflyBlock]) := by
    cbv
  exact ⟨flawless, compiled, block_vanishes_iff flawless compiled List.mem_cons_self _⟩

end Sketch

end PlaneSketch
