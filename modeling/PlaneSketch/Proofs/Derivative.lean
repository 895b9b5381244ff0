import Mathlib
import PlaneSketch.Proofs.Partition
import PlaneSketch.Scalar.Real

/-!
The gradient of a relation is the derivative of its residual.

A curve of valuations moves the variables that a relation reads, each with its own velocity. The
chain rule then gives the velocity of every residual as the sum of its partial derivatives times
the velocities of the slots, a variable that is read twice counting twice
(`hasDerivAt_residual`). Distances have to be longer than the shortest one that has a direction.
-/

namespace PlaneSketch

/-! ### Curves in the plane -/

/-- The point moves with the velocity `d` at time `t`. -/
structure Vec2.Moves (c : ℝ → Vec2 ℝ) (d : Vec2 ℝ) (t : ℝ) : Prop where
  x : HasDerivAt (fun s => (c s).x) d.x t
  y : HasDerivAt (fun s => (c s).y) d.y t

namespace Vec2.Moves

variable {c e : ℝ → Vec2 ℝ} {d f : Vec2 ℝ} {t : ℝ}

theorem const (a : Vec2 ℝ) : Moves (fun _ => a) ⟨0, 0⟩ t :=
  ⟨hasDerivAt_const t a.x, hasDerivAt_const t a.y⟩

theorem add (moves : Moves c d t) (moves' : Moves e f t) :
    Moves (fun s => c s + e s) (d + f) t :=
  ⟨HasDerivAt.fun_add moves.x moves'.x, HasDerivAt.fun_add moves.y moves'.y⟩

theorem sub (moves : Moves c d t) (moves' : Moves e f t) :
    Moves (fun s => c s - e s) (d - f) t :=
  ⟨HasDerivAt.fun_sub moves.x moves'.x, HasDerivAt.fun_sub moves.y moves'.y⟩

theorem scale (k : ℝ) (moves : Moves c d t) : Moves (fun s => (c s).scale k) (d.scale k) t :=
  ⟨HasDerivAt.const_mul k moves.x, HasDerivAt.const_mul k moves.y⟩

theorem dot (moves : Moves c d t) (moves' : Moves e f t) :
    HasDerivAt (fun s => (c s).dot (e s)) (d.dot (e t) + (c t).dot f) t := by
  have products := HasDerivAt.fun_add (moves.x.fun_mul moves'.x) (moves.y.fun_mul moves'.y)
  refine HasDerivAt.congr_deriv products ?_
  simp only [Vec2.dot]
  ring

theorem cross (moves : Moves c d t) (moves' : Moves e f t) :
    HasDerivAt (fun s => (c s).cross (e s)) (d.cross (e t) + (c t).cross f) t := by
  have products := HasDerivAt.fun_sub (moves.x.fun_mul moves'.y) (moves.y.fun_mul moves'.x)
  refine HasDerivAt.congr_deriv products ?_
  simp only [Vec2.cross]
  ring

/-- A length grows as fast as the vector moves along its direction. -/
theorem norm (moves : Moves c d t) (long : Scalar.lengthFloor < (c t).norm) :
    HasDerivAt (fun s => (c s).norm) ((c t).direction.dot d) t := by
  have positive : 0 < (c t).norm := Scalar.lengthFloor_pos.trans long
  have square : (c t).x * (c t).x + (c t).y * (c t).y ≠ 0 := by
    rw [← Vec2.norm_mul_norm]
    exact (mul_pos positive positive).ne'
  have squares := HasDerivAt.fun_add (moves.x.fun_mul moves.x) (moves.y.fun_mul moves.y)
  refine HasDerivAt.congr_deriv (squares.sqrt square) ?_
  rw [Vec2.direction_real long, ← Vec2.norm_real]
  simp only [Vec2.dot]
  field_simp
  ring

end Vec2.Moves

/-! ### Lists of numbers that move -/

/-- Each entry of a list moves with the velocity at its place. -/
structure Derives (F : ℝ → List ℝ) (D : List ℝ) (t : ℝ) : Prop where
  length : ∀ s, (F s).length = D.length
  entry : ∀ i < D.length, HasDerivAt (fun s => (F s).getD i 0) (D.getD i 0) t

namespace Derives

variable {F G : ℝ → List ℝ} {D E : List ℝ} {f g : ℝ → ℝ} {d e t : ℝ}

theorem nil : Derives (fun _ => []) [] t :=
  ⟨fun _ => rfl, fun _ h => absurd h (Nat.not_lt_zero _)⟩

theorem one (moves : HasDerivAt f d t) (same : d = e) : Derives (fun s => [f s]) [e] t where
  length _ := rfl
  entry i h := by
    obtain rfl : i = 0 := Nat.lt_one_iff.mp h
    exact same ▸ moves

theorem append (moves : Derives F D t) (moves' : Derives G E t) :
    Derives (fun s => F s ++ G s) (D ++ E) t where
  length s := by rw [List.length_append, List.length_append, moves.length, moves'.length]
  entry i h := by
    by_cases first : i < D.length
    · have left : ∀ s, (F s ++ G s).getD i 0 = (F s).getD i 0 := fun s =>
        List.getD_append _ _ _ _ (by rwa [moves.length])
      simp only [left, List.getD_append _ _ _ _ first]
      exact moves.entry i first
    · have later : D.length ≤ i := Nat.le_of_not_lt first
      have right : ∀ s, (F s ++ G s).getD i 0 = (G s).getD (i - D.length) 0 := fun s => by
        rw [List.getD_append_right _ _ _ _ (by rwa [moves.length]), moves.length]
      simp only [right, List.getD_append_right _ _ _ _ later]
      exact moves'.entry _ (by rw [List.length_append] at h; omega)

theorem two {d' e' : ℝ} (moves : HasDerivAt f d t) (moves' : HasDerivAt g d' t) (same : d = e)
    (same' : d' = e') : Derives (fun s => [f s, g s]) [e, e'] t :=
  (one moves same).append (one moves' same')

theorem vector {c : ℝ → Vec2 ℝ} {v : Vec2 ℝ} {e' : ℝ} (moves : Vec2.Moves c v t)
    (same : v.x = e) (same' : v.y = e') : Derives (fun s => [(c s).x, (c s).y]) [e, e'] t :=
  two moves.x moves.y same same'

/-- The entries of joined lists, one list for each member of some items. -/
theorem flatMap {τ : Type} {items : List τ} {F : τ → ℝ → List ℝ} {D : τ → List ℝ}
    (moves : ∀ a ∈ items, Derives (F a) (D a) t) :
    Derives (fun s => items.flatMap fun a => F a s) (items.flatMap D) t := by
  induction items with
  | nil => exact nil
  | cons a items ih =>
    simp only [List.flatMap_cons]
    exact (moves a List.mem_cons_self).append
      (ih fun b listed => moves b (List.mem_cons_of_mem a listed))

end Derives

/-! ### Sums over slots -/

/-- The sum of partial derivatives times the velocities of their slots. -/
def along (slots : List Variable) (partials : List ℝ) (velocity : Variable → ℝ) : ℝ :=
  (List.zipWith (fun slot p => p * velocity slot) slots partials).sum

/-- The velocity of a point. -/
def velocityOf (velocity : Variable → ℝ) (p : Handle) : Vec2 ℝ :=
  ⟨velocity ⟨p, .x⟩, velocity ⟨p, .y⟩⟩

section Along

variable {velocity : Variable → ℝ}

@[simp] theorem along_nil (partials : List ℝ) : along [] partials velocity = 0 := by
  simp [along]

@[simp] theorem along_cons (v : Variable) (slots : List Variable) (p : ℝ) (partials : List ℝ) :
    along (v :: slots) (p :: partials) velocity =
      p * velocity v + along slots partials velocity := by
  simp [along]

@[simp] theorem along_coordinates_nil (partials : List ℝ) :
    along (coordinates []) partials velocity = 0 := along_nil partials

/-- The partial derivatives by the coordinates of a point, times its velocity. -/
@[simp] theorem along_coordinates_cons (p : Handle) (points : List Handle) (a b : ℝ)
    (partials : List ℝ) :
    along (coordinates (p :: points)) (a :: b :: partials) velocity =
      (⟨a, b⟩ : Vec2 ℝ).dot (velocityOf velocity p) +
        along (coordinates points) partials velocity := by
  simp [along, coordinates, Vec2.dot, velocityOf, add_assoc]

theorem along_append {slots others : List Variable} {partials rest : List ℝ}
    (lengths : slots.length = partials.length) :
    along (slots ++ others) (partials ++ rest) velocity =
      along slots partials velocity + along others rest velocity := by
  rw [along, List.zipWith_append lengths, List.sum_append]
  rfl

theorem along_map_mul (k : ℝ) (slots : List Variable) (partials : List ℝ) :
    along slots (partials.map (k * ·)) velocity = k * along slots partials velocity := by
  induction slots generalizing partials with
  | nil => simp [along_nil]
  | cons v slots ih =>
    cases partials with
    | nil => simp [along]
    | cons p partials =>
      rw [List.map_cons, along_cons, along_cons, ih]
      ring

end Along

/-! ### Residuals along a curve -/

/-- All variables move, each with its own velocity. -/
def Moving (curve : ℝ → Valuation ℝ) (velocity : Variable → ℝ) (t : ℝ) : Prop :=
  ∀ v, HasDerivAt (fun s => curve s v) (velocity v) t

/-- The distances that a radius measures. -/
noncomputable def Radius.distances (v : Valuation ℝ) : Radius → List ℝ
  | circle _ => []
  | arc start center => [(v.point start - v.point center).norm]

/-- The distances that a relation measures as lengths. -/
noncomputable def Relation.distances (v : Valuation ℝ) : Relation ℝ → List ℝ
  | radius r _ => r.distances v
  | radiusRatio r s _ => r.distances v ++ s.distances v
  | onCircle p center _ => [(v.point p - v.point center).norm]
  | onArc p center start | arc p center start =>
    [(v.point p - v.point center).norm, (v.point start - v.point center).norm]
  | lengthRatio a b c d _ => [(v.point b - v.point a).norm, (v.point d - v.point c).norm]
  | _ => []

section Residual

variable {curve : ℝ → Valuation ℝ} {velocity : Variable → ℝ} {t : ℝ}

theorem Moving.point (moving : Moving curve velocity t) (p : Handle) :
    Vec2.Moves (fun s => (curve s).point p) (velocityOf velocity p) t :=
  ⟨moving ⟨p, .x⟩, moving ⟨p, .y⟩⟩

/-- The displacement between two points moves as they do. -/
theorem Moving.between (moving : Moving curve velocity t) (p q : Handle) :
    Vec2.Moves (fun s => (curve s).point q - (curve s).point p)
      (velocityOf velocity q - velocityOf velocity p) t :=
  (moving.point q).sub (moving.point p)

theorem hasDerivAt_size (moving : Moving curve velocity t) (r : Radius)
    (apart : ∀ d ∈ r.distances (curve t), Scalar.lengthFloor < d) :
    HasDerivAt (fun s => r.size (curve s)) (along r.slots (r.gradient (curve t)) velocity) t := by
  cases r with
  | circle c =>
    refine HasDerivAt.congr_deriv (moving ⟨c, .r⟩) ?_
    simp only [Radius.slots, Radius.gradient, along_cons, along_nil]
    ring
  | arc start center =>
    have far := (moving.between center start).norm (apart _ (by simp [Radius.distances]))
    refine HasDerivAt.congr_deriv far ?_
    simp only [Radius.slots, Radius.gradient, along_coordinates_cons, along_coordinates_nil,
      Vec2.dot, Vec2.sub_x, Vec2.sub_y]
    ring

theorem length_gradient_radius (v : Valuation ℝ) (r : Radius) :
    r.slots.length = (r.gradient v).length := by
  cases r <;> rfl

/-- **The gradient of a relation is the derivative of its residuals** along every curve. -/
theorem derives_residual (moving : Moving curve velocity t) (relation : Relation ℝ)
    (apart : ∀ d ∈ relation.distances (curve t), Scalar.lengthFloor < d) :
    Derives (fun s => relation.residual (curve s))
      ((relation.gradient (curve t)).map fun row => along relation.slots row velocity) t := by
  cases relation with
  | fixed p position =>
    refine .vector ((moving.point p).sub (.const position)) ?_ ?_
    all_goals
      simp only [Relation.slots, along_coordinates_cons, along_coordinates_nil, Vec2.dot,
        Vec2.sub_x, Vec2.sub_y]
      ring
  | offset a b displacement =>
    refine .vector ((moving.between a b).sub (.const displacement)) ?_ ?_
    all_goals
      simp only [Relation.slots, along_coordinates_cons, along_coordinates_nil, Vec2.dot,
        Vec2.sub_x, Vec2.sub_y]
      ring
  | distance a b length =>
    have squares := HasDerivAt.sub_const (length * length)
      ((moving.between a b).dot (moving.between a b))
    refine .one (HasDerivAt.div_const squares (Scalar.two * length)) ?_
    simp only [Relation.slots, along_coordinates_cons, along_coordinates_nil, Vec2.dot, Vec2.sub_x,
      Vec2.sub_y, Scalar.two_real]
    ring
  | radius r size => exact .one (HasDerivAt.sub_const size (hasDerivAt_size moving r apart)) rfl
  | radiusRatio r q ratio =>
    obtain ⟨apart, apart'⟩ := List.forall_mem_append.mp apart
    have sizes := HasDerivAt.fun_sub (hasDerivAt_size moving r apart)
      (HasDerivAt.const_mul ratio (hasDerivAt_size moving q apart'))
    refine .one sizes ?_
    simp only [Relation.slots, along_append (length_gradient_radius _ r), along_map_mul]
    ring
  | parallel a b c d =>
    refine .one ((moving.between a b).cross (moving.between c d)) ?_
    simp only [Relation.slots, along_coordinates_cons, along_coordinates_nil, Relation.byEnds,
      Vec2.dot, Vec2.cross, Vec2.sub_x, Vec2.sub_y]
    ring
  | perpendicular a b c d =>
    refine .one ((moving.between a b).dot (moving.between c d)) ?_
    simp only [Relation.slots, along_coordinates_cons, along_coordinates_nil, Relation.byEnds,
      Vec2.dot, Vec2.sub_x, Vec2.sub_y]
    ring
  | heading a b cosine sine =>
    have turned := HasDerivAt.fun_sub (HasDerivAt.mul_const (moving.between a b).y cosine)
      (HasDerivAt.mul_const (moving.between a b).x sine)
    refine .one turned ?_
    simp only [Relation.slots, along_coordinates_cons, along_coordinates_nil, Vec2.dot, Vec2.sub_x,
      Vec2.sub_y]
    ring
  | turn a b c d cosine sine =>
    have turned := HasDerivAt.fun_sub
      (HasDerivAt.mul_const ((moving.between a b).cross (moving.between c d)) cosine)
      (HasDerivAt.mul_const ((moving.between a b).dot (moving.between c d)) sine)
    refine .one turned ?_
    simp only [Relation.slots, along_coordinates_cons, along_coordinates_nil, Relation.byEnds,
      Vec2.dot, Vec2.cross, List.zipWith_cons_cons, List.zipWith_nil_left, Vec2.sub_x, Vec2.sub_y]
    ring
  | coincident p q =>
    refine .vector (moving.between q p) ?_ ?_
    all_goals
      simp only [Relation.slots, along_coordinates_cons, along_coordinates_nil, Vec2.dot,
        Vec2.sub_x, Vec2.sub_y]
      ring
  | onLine p a b =>
    refine .one ((moving.between a p).cross (moving.between a b)) ?_
    simp only [Relation.slots, along_coordinates_cons, along_coordinates_nil, Vec2.dot, Vec2.cross,
      Vec2.sub_x, Vec2.sub_y]
    ring
  | onCircle p center circle =>
    have far := (moving.between center p).norm (apart _ (by simp [Relation.distances]))
    refine .one (HasDerivAt.fun_sub far (moving ⟨circle, .r⟩)) ?_
    simp only [Relation.slots, coordinates, List.flatMap_cons, List.flatMap_nil,
      List.cons_append, List.nil_append, along_cons, along_nil,
      velocityOf, Vec2.dot, Vec2.sub_x, Vec2.sub_y]
    ring
  | onArc p center start =>
    have far := (moving.between center p).norm (apart _ (by simp [Relation.distances]))
    have far' := (moving.between center start).norm (apart _ (by simp [Relation.distances]))
    refine .one (HasDerivAt.fun_sub far far') ?_
    simp only [Relation.slots, along_coordinates_cons, along_coordinates_nil, Vec2.dot, Vec2.sub_x,
      Vec2.sub_y]
    ring
  | midpoint p q m =>
    have sum := ((moving.point p).add (moving.point q)).sub ((moving.point m).scale Scalar.two)
    refine .vector sum ?_ ?_
    all_goals
      simp only [Relation.slots, along_coordinates_cons, along_coordinates_nil, Vec2.dot,
        Vec2.sub_x, Vec2.sub_y, Vec2.add_x, Vec2.add_y, Vec2.scale_x, Vec2.scale_y,
        Scalar.two_real]
      ring
  | reflected p q a b =>
    have middle := ((moving.point p).add (moving.point q)).scale Scalar.half
    have offAxis := (middle.sub (moving.point a)).cross (moving.between a b)
    refine .two offAxis ((moving.between p q).dot (moving.between a b)) ?_ ?_
    all_goals
      simp only [Relation.slots, along_coordinates_cons, along_coordinates_nil, Vec2.dot,
        Vec2.cross, Vec2.sub_x, Vec2.sub_y, Vec2.add_x, Vec2.add_y, Vec2.scale_x, Vec2.scale_y,
        Scalar.half_real]
      ring
  | level a b =>
    refine .one (HasDerivAt.fun_sub (moving b) (moving a)) ?_
    simp only [Relation.slots, along_cons, along_nil]
    ring
  | between p a b fraction =>
    have sum := ((moving.point p).sub ((moving.point a).scale (1 - fraction))).sub
      ((moving.point b).scale fraction)
    refine .vector sum ?_ ?_
    all_goals
      simp only [Relation.slots, along_coordinates_cons, along_coordinates_nil, Vec2.dot,
        Vec2.sub_x, Vec2.sub_y, Vec2.scale_x, Vec2.scale_y]
      ring
  | lengthRatio a b c d ratio =>
    have far := (moving.between a b).norm (apart _ (by simp [Relation.distances]))
    have far' := (moving.between c d).norm (apart _ (by simp [Relation.distances]))
    refine .one (HasDerivAt.fun_sub far (HasDerivAt.const_mul ratio far')) ?_
    simp only [Relation.slots, along_coordinates_cons, along_coordinates_nil, Vec2.dot, Vec2.sub_x,
      Vec2.sub_y]
    ring
  | arc start center finish =>
    have far := (moving.between center finish).norm (apart _ (by simp [Relation.distances]))
    have far' := (moving.between center start).norm (apart _ (by simp [Relation.distances]))
    refine .one (HasDerivAt.fun_sub far far') ?_
    simp only [Relation.slots, along_coordinates_cons, along_coordinates_nil, Vec2.dot, Vec2.sub_x,
      Vec2.sub_y]
    ring

end Residual

/-! ### Equations as functions of their free variables -/

/-- The partial derivatives at all slots of a variable add up to the velocity at which the others
stand still. -/
theorem along_indicator (slots : List Variable) (partials : List ℝ) (w : Variable) :
    along slots partials (fun v => if v = w then 1 else 0) = Block.partialBy slots partials w := by
  have fold : ∀ (sum : ℝ), (List.zip slots partials).foldl
      (fun sum (slot, p) => if slot = w then sum + p else sum) sum =
        sum + along slots partials fun v => if v = w then 1 else 0 := by
    induction slots generalizing partials with
    | nil => simp
    | cons v slots ih =>
      cases partials with
      | nil => simp [along]
      | cons p partials =>
        intro sum
        rw [List.zip_cons_cons, List.foldl_cons, ih, along_cons]
        by_cases same : v = w
        · simp [same, add_assoc]
        · simp [same]
  rw [Block.partialBy, fold, zero_add]

namespace Equations

variable {system : Equations ℝ} {x : List ℝ} {j : Nat} {w : Variable}

/-- Moving the value at one place moves the variable of this place alone. -/
theorem moving_valuation (distinct : system.free.Nodup) (place : system.free[j]? = some w)
    (inside : j < x.length) (t : ℝ) :
    Moving (fun s => system.valuation (x.set j s)) (fun v => if v = w then 1 else 0) t := by
  obtain ⟨within, rfl⟩ := List.getElem?_eq_some_iff.mp place
  intro v
  simp only [valuation, column?]
  cases found : system.free.findIdx? fun u => decide (u = v) with
  | none =>
    have other : v ≠ system.free[j] := by
      rintro rfl
      have absent := List.findIdx?_eq_none_iff.mp found _ (List.getElem_mem within)
      simp at absent
    rw [if_neg other]
    exact hasDerivAt_const t _
  | some i =>
    obtain ⟨hi, at_i, -⟩ := List.findIdx?_eq_some_iff_getElem.mp found
    obtain rfl : system.free[i] = v := by simpa using at_i
    by_cases same : i = j
    · subst same
      simp only [if_true, List.getD_eq_getElem?_getD, List.getElem?_set_self inside,
        Option.getD_some]
      exact hasDerivAt_id t
    · have other : system.free[i] ≠ system.free[j] := fun equal =>
        same ((List.Nodup.getElem_inj_iff distinct).mp equal)
      simp only [if_neg other, List.getD_eq_getElem?_getD, List.getElem?_set_ne (Ne.symm same)]
      exact hasDerivAt_const t _

/-- **A column of the Jacobian holds the derivatives of the residuals by one free variable.** -/
theorem derives_residuals (distinct : system.free.Nodup) (place : system.free[j]? = some w)
    (inside : j < x.length)
    (apart : ∀ block ∈ system.blocks, ∀ d ∈ block.relation.distances (system.valuation x),
      Scalar.lengthFloor < d) :
    Derives (fun s => system.residuals (x.set j s))
      ((system.jacobian x).map fun row => row.getD j 0) (x.getD j 0) := by
  have here : x.set j (x.getD j 0) = x := by
    rw [List.getD_eq_getElem _ _ inside, List.set_getElem_self]
  have moving : Moving (fun s => system.valuation (x.set j s)) _ (x.getD j 0) :=
    moving_valuation distinct place inside _
  have columns : ((system.jacobian x).map fun row => row.getD j 0) =
      system.blocks.flatMap fun block =>
        (block.relation.gradient (system.valuation x)).map fun row =>
          along block.relation.slots row fun v => if v = w then 1 else 0 := by
    rw [jacobian, List.map_flatMap]
    congr 1
    funext block
    rw [Block.jacobian, List.map_map]
    congr 1
    funext row
    simp [List.getD_eq_getElem?_getD, place, along_indicator]
  rw [columns]
  refine Derives.flatMap fun block listed => ?_
  have moves := derives_residual moving block.relation (by rw [here]; exact apart block listed)
  simp only [here] at moves
  exact moves

/-- The Jacobian has a row for each residual and a column for each free variable. -/
theorem shape_jacobian (system : Equations ℝ) (x : List ℝ) :
    (system.jacobian x).length = (system.residuals x).length ∧
      ∀ row ∈ system.jacobian x, row.length = system.free.length := by
  constructor
  · rw [jacobian, residuals, List.length_flatMap, List.length_flatMap]
    congr 2
    funext block
    rw [Block.jacobian, List.length_map, Relation.length_gradient, Block.residual,
      Relation.length_residual]
  · intro row listed
    obtain ⟨block, -, listed⟩ := List.mem_flatMap.mp listed
    obtain ⟨partials, -, rfl⟩ := List.mem_map.mp listed
    exact List.length_map _

end Equations

/-- **The Jacobian of an island is the matrix of the partial derivatives of its residuals**, with
all other variables as constants, at every position where each distance that is measured as a
length is longer than the shortest one with a direction. The entry in row `i` and column `j` is the
derivative of residual `i` when the free variable `j` moves and the others stand still, however
often a block reads that variable. -/
theorem jacobian_eq_partials {pool : Pool ℝ} {blocks : List (Block ℝ)}
    {links : List (List Variable)} {islands : List (Island ℝ)}
    (parted : partition pool blocks links = .ok islands) {island : Island ℝ}
    (member : island ∈ islands) (constants : Valuation ℝ) {x : List ℝ}
    (lengths : x.length = island.unknowns.length)
    (apart : ∀ block ∈ island.blocks, ∀ d ∈ block.relation.distances
      ((Equations.mk island.blocks island.unknowns constants).valuation x), 1e-12 < d) :
    let system := Equations.mk island.blocks island.unknowns constants
    (system.jacobian x).length = (system.residuals x).length ∧
      (∀ row ∈ system.jacobian x, row.length = x.length) ∧
      ∀ i < (system.residuals x).length, ∀ j < x.length,
        HasDerivAt (fun t => (system.residuals (x.set j t)).getD i 0)
          (((system.jacobian x).getD i []).getD j 0) (x.getD j 0) := by
  intro system
  obtain ⟨rows, columns⟩ := system.shape_jacobian x
  refine ⟨rows, fun row listed => (columns row listed).trans lengths.symm, ?_⟩
  intro i hi j hj
  have place : system.free[j]? = some island.unknowns[j] := List.getElem?_eq_getElem (lengths ▸ hj)
  have moves := Equations.derives_residuals (Partition.nodup_unknowns parted member) place hj
    (fun block listed d measured => by
      rw [Scalar.lengthFloor_real]
      exact apart block listed d measured)
  have row : i < (system.jacobian x).length := rows ▸ hi
  have entry := moves.entry i (by rwa [List.length_map])
  have same : ((system.jacobian x).map fun row => row.getD j 0).getD i 0 =
      ((system.jacobian x).getD i []).getD j 0 := by
    simp only [List.getD_eq_getElem?_getD, List.getElem?_map, List.getElem?_eq_getElem row,
      Option.map_some, Option.getD_some]
  rwa [same] at entry

/-- Two lines from one corner that are demanded to be equally long, with a point that both read. -/
noncomputable def corner : Sketch ℝ where
  features := ⟨[
    ⟨some (.point 0 0 false), 0⟩, ⟨some (.point 1 0 false), 0⟩, ⟨some (.point 0 1 false), 0⟩,
    ⟨some (.line ⟨0, 0⟩ ⟨1, 0⟩ false), 0⟩, ⟨some (.line ⟨0, 0⟩ ⟨2, 0⟩ false), 0⟩]⟩
  constraints := ⟨[⟨some (.plain .equalLength [⟨3, 0⟩, ⟨4, 0⟩] none none), 0⟩]⟩
  groups := []

/-- The only island of the corner. -/
noncomputable def cornerIsland : Island ℝ where
  index := 0
  unknowns := coordinates [⟨0, 0⟩, ⟨1, 0⟩, ⟨2, 0⟩]
  pinned := []
  blocks := [⟨.constraint ⟨0, 0⟩ .equalLength,
    .lengthRatio ⟨0, 0⟩ ⟨1, 0⟩ ⟨0, 0⟩ ⟨2, 0⟩ (Constraint.multiplier (α := ℝ)
      (.plain .equalLength [⟨3, 0⟩, ⟨4, 0⟩] none none))⟩]

theorem jacobian_of_corner :
    corner.compile (Pool.ofSketch corner) [] [] =
      .ok (Pool.ofSketch corner, cornerIsland.blocks) ∧
    partition (Pool.ofSketch corner) cornerIsland.blocks [] = .ok [cornerIsland] ∧
    let system := Equations.mk cornerIsland.blocks cornerIsland.unknowns fun _ => 0
    HasDerivAt (fun t => (system.residuals ([0, 0, 1, 0, 0, 1].set 0 t)).getD 0 0)
      (((system.jacobian [0, 0, 1, 0, 0, 1]).getD 0 []).getD 0 0) 0 := by
  have parted : partition (Pool.ofSketch corner) cornerIsland.blocks [] = .ok [cornerIsland] := by
    cbv
  refine ⟨by cbv, parted, ?_⟩
  have partials := jacobian_eq_partials parted List.mem_cons_self (fun _ => 0)
    (x := [0, 0, 1, 0, 0, 1]) rfl ?_
  · exact partials.2.2 0 (by cbv) 0 (by cbv)
  · intro block listed d measured
    obtain rfl := List.mem_singleton.mp listed
    have lengths : d = √(1 * 1 + 0 * 0) ∨ d = √(0 * 0 + 1 * 1) := by
      simpa [Relation.distances, Vec2.norm_real, Valuation.point, Equations.valuation,
        Equations.column?, cornerIsland, coordinates, List.findIdx?_cons] using measured
    rcases lengths with rfl | rfl
    · exact Real.lt_sqrt_of_sq_lt (by norm_num)
    · exact Real.lt_sqrt_of_sq_lt (by norm_num)

end PlaneSketch
