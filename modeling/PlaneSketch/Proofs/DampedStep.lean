import Mathlib
import PlaneSketch.Proofs.Descent
import PlaneSketch.Proofs.RowSpace

/-!
The step of a damped descent.

A step brings the linearised equations close to zero and pays for its own length. Over the real
numbers there is exactly one step that pays least, whatever the shape and the rank of the Jacobian,
and an exact least-squares method finds it.

* `Balanced`: a step from which nothing is gained to first order; `price_of_balanced` says how much
  every other step pays more, `balanced_of_least` that the best step is balanced.
* `Matrix.adjoint_rowVector`: products with the columns of a matrix, in terms of vectors.
* `Descent.GaussNewton`: what is true of the step.
* `Descent.exists_gaussNewton`: there is one such step, and it is the one that is found.
-/

namespace PlaneSketch

open InnerProductSpace

/-! ### Linear equations with a penalty -/

section Penalty

variable {E F : Type} [NormedAddCommGroup E] [InnerProductSpace ℝ E]
  [NormedAddCommGroup F] [InnerProductSpace ℝ F]

/-- What a step pays: for what it leaves of the equations, and for its length. -/
noncomputable def price (A : E →ₗ[ℝ] F) (f : F) (damping : ℝ) (d : E) : ℝ :=
  ‖A d + f‖ ^ 2 + damping * ‖d‖ ^ 2

variable {A : E →ₗ[ℝ] F} {f : F} {damping : ℝ} {d e : E}

/-- The price of going on, by its first and its second order. -/
theorem price_add : price A f damping (d + e) = price A f damping d +
    2 * (⟪A d + f, A e⟫_ℝ + damping * ⟪d, e⟫_ℝ) + (‖A e‖ ^ 2 + damping * ‖e‖ ^ 2) := by
  have equations := norm_add_sq_real (A d + f) (A e)
  have length := norm_add_sq_real d e
  rw [price, price, map_add, add_right_comm (A d), equations, length]
  ring

/-- To first order, nothing is gained by going on from the step. -/
def Balanced (A : E →ₗ[ℝ] F) (f : F) (damping : ℝ) (d : E) : Prop :=
  ∀ e, ⟪A d + f, A e⟫_ℝ + damping * ⟪d, e⟫_ℝ = 0

/-- **A step that pays least is balanced.** -/
theorem balanced_of_least (least : ∀ e, price A f damping d ≤ price A f damping e) :
    Balanced A f damping d := by
  intro e
  -- along a line the price is a quadratic function that is lowest at zero
  have above (t : ℝ) : 0 ≤ (‖A e‖ ^ 2 + damping * ‖e‖ ^ 2) * (t * t) +
      2 * (⟪A d + f, A e⟫_ℝ + damping * ⟪d, e⟫_ℝ) * t + 0 := by
    have more := least (d + t • e)
    rw [price_add, map_smul, norm_smul, norm_smul, inner_smul_right, inner_smul_right, mul_pow,
      mul_pow, Real.norm_eq_abs, sq_abs] at more
    linarith
  have flat := discrim_le_zero above
  rw [discrim, mul_zero, sub_zero] at flat
  have zero := pow_eq_zero_iff two_ne_zero |>.mp (le_antisymm flat (sq_nonneg _))
  linarith

/-- **Every other step pays more** than a balanced one, by what the difference pays. -/
theorem price_of_balanced (balanced : Balanced A f damping d) (e : E) :
    price A f damping e =
      price A f damping d + (‖A (e - d)‖ ^ 2 + damping * ‖e - d‖ ^ 2) := by
  have more : price A f damping (d + (e - d)) = _ := price_add
  rw [add_sub_cancel, balanced, mul_zero, add_zero] at more
  exact more

theorem least_of_balanced (positive : 0 < damping) (balanced : Balanced A f damping d) (e : E) :
    price A f damping d ≤ price A f damping e := by
  rw [price_of_balanced balanced e]
  exact le_add_of_nonneg_right (by positivity)

/-- **No two steps pay least.** -/
theorem eq_of_price_le (positive : 0 < damping) (balanced : Balanced A f damping d)
    (small : price A f damping e ≤ price A f damping d) : e = d := by
  rw [price_of_balanced balanced e] at small
  have equations := sq_nonneg ‖A (e - d)‖
  have length := mul_nonneg positive.le (sq_nonneg ‖e - d‖)
  have zero : damping * ‖e - d‖ ^ 2 = 0 := by linarith
  have short : ‖e - d‖ ^ 2 = 0 := (mul_eq_zero.mp zero).resolve_left positive.ne'
  exact sub_eq_zero.mp (norm_eq_zero.mp (pow_eq_zero_iff two_ne_zero |>.mp short))

/-- A balanced step goes nowhere that the equations do not see. -/
theorem inner_eq_zero_of_balanced (positive : 0 < damping) (balanced : Balanced A f damping d)
    (unseen : A e = 0) : ⟪d, e⟫_ℝ = 0 := by
  have flat := balanced e
  rw [unseen, inner_zero_right, zero_add] at flat
  exact (mul_eq_zero.mp flat).resolve_left positive.ne'

variable [FiniteDimensional ℝ E] [FiniteDimensional ℝ F]

/-- Balanced steps are the solutions of the normal equations. -/
theorem balanced_iff :
    Balanced A f damping d ↔ A.adjoint (A d) + damping • d = -A.adjoint f := by
  have split (e : E) : ⟪A.adjoint (A d) + damping • d - -A.adjoint f, e⟫_ℝ =
      ⟪A d + f, A e⟫_ℝ + damping * ⟪d, e⟫_ℝ := by
    rw [sub_neg_eq_add, inner_add_left, inner_add_left, LinearMap.adjoint_inner_left,
      LinearMap.adjoint_inner_left, real_inner_smul_left, inner_add_left]
    ring
  rw [← sub_eq_zero]
  constructor
  · intro balanced
    refine ext_inner_right ℝ fun e => ?_
    rw [split, balanced, inner_zero_left]
  · intro zero e
    rw [← split, zero, inner_zero_left]

/-- **A balanced step goes downhill**, unless there is no slope. -/
theorem inner_adjoint_lt (positive : 0 < damping) (balanced : Balanced A f damping d)
    (slope : A.adjoint f ≠ 0) : d ≠ 0 ∧ ⟪A.adjoint f, d⟫_ℝ < 0 := by
  have moves : d ≠ 0 := by
    rintro rfl
    refine slope ?_
    rw [balanced_iff, map_zero, map_zero, smul_zero, add_zero] at balanced
    exact neg_eq_zero.mp balanced.symm
  refine ⟨moves, ?_⟩
  have own := balanced d
  rw [inner_add_left, real_inner_self_eq_norm_sq, real_inner_self_eq_norm_sq] at own
  have length := mul_pos positive (pow_pos (norm_pos_iff.mpr moves) 2)
  have equations := sq_nonneg ‖A d‖
  rw [LinearMap.adjoint_inner_left]
  linarith

end Penalty

/-! ### Lists of numbers as vectors -/

section Vectors

variable {width n : Nat} {rows : Matrix ℝ} {xs ys : List ℝ}

theorem rowVector_injective (long : xs.length = width) (long' : ys.length = width)
    (same : rowVector width xs = rowVector width ys) : xs = ys := by
  refine List.ext_getElem (long.trans long'.symm) fun i inside inside' => ?_
  have entry := congrFun (congrArg WithLp.ofLp same) ⟨i, long ▸ inside⟩
  simpa [rowVector, inside, inside'] using entry

theorem exists_rowVector_eq (v : EuclideanSpace ℝ (Fin width)) :
    ∃ xs : List ℝ, xs.length = width ∧ rowVector width xs = v := by
  refine ⟨List.ofFn v, List.length_ofFn, ?_⟩
  ext j
  simp [rowVector]

theorem rowVector_add (long : xs.length = width) (long' : ys.length = width) :
    rowVector width (Vector.add xs ys) = rowVector width xs + rowVector width ys := by
  ext j
  have inside : (j : Nat) < xs.length := by omega
  have inside' : (j : Nat) < ys.length := by omega
  simp [rowVector, Vector.add, List.getD_eq_getElem?_getD, inside, inside']

theorem rowVector_scale (k : ℝ) : rowVector width (Vector.scale k xs) = k • rowVector width xs := by
  ext j
  simp only [rowVector, Vector.scale, PiLp.smul_apply, smul_eq_mul, List.getD_eq_getElem?_getD,
    List.getElem?_map]
  cases xs[(j : Nat)]? with
  | none => simp
  | some r => rfl

theorem rowVector_neg : rowVector width (xs.map (- ·)) = -rowVector width xs := by
  ext j
  simp only [rowVector, PiLp.neg_apply, List.getD_eq_getElem?_getD, List.getElem?_map]
  cases xs[(j : Nat)]? with
  | none => simp
  | some r => rfl

theorem cost_eq_norm_sq (long : xs.length = width) :
    Descent.cost xs = ‖rowVector width xs‖ ^ 2 := by
  rw [← Descent.dot_self_eq_cost, dot_eq_inner long long, real_inner_self_eq_norm_sq]

theorem rowVector_eq_zero_iff (long : xs.length = width) :
    rowVector width xs = 0 ↔ ∀ x ∈ xs, x = 0 := by
  rw [← Descent.cost_eq_zero_iff, cost_eq_norm_sq long, pow_eq_zero_iff two_ne_zero, norm_eq_zero]

theorem dot_eq_sum (long : xs.length = width) (long' : ys.length = width) :
    Vector.dot xs ys = ∑ j : Fin width, xs.getD j 0 * ys.getD j 0 := by
  obtain ⟨e, rfl⟩ := exists_ofFn_eq long'
  rw [dot_ofFn xs long]
  simp

/-- The products of the rows of a matrix with a vector. -/
theorem Matrix.linearMap_rowVector (shape : ∀ row ∈ rows, row.length = width)
    (long : xs.length = width) :
    rows.linearMap width (rowVector width xs) =
      rowVector rows.length (rows.map (Vector.dot · xs)) := by
  ext i
  rw [linearMap_apply, ← dot_eq_inner (shape _ (List.get_mem rows i)) long]
  simp [rowVector]

theorem Matrix.linearMap_rowVector_eq_zero (shape : ∀ row ∈ rows, row.length = width)
    (long : xs.length = width) (unseen : ∀ row ∈ rows, Vector.dot row xs = 0) :
    rows.linearMap width (rowVector width xs) = 0 := by
  ext i
  have row := List.get_mem rows i
  rw [linearMap_apply, ← dot_eq_inner (shape _ row) long, unseen _ row]
  rfl

/-- The products of the columns of a matrix with a vector. -/
noncomputable def Matrix.columnProducts (rows : Matrix ℝ) (width : Nat) (xs : List ℝ) : List ℝ :=
  (Matrix.columns width rows).map (Vector.dot · xs)

theorem Matrix.length_columnProducts : (rows.columnProducts width xs).length = width := by
  simp [columnProducts, columns]

theorem Matrix.adjoint_rowVector (long : xs.length = rows.length) :
    (rows.linearMap width).adjoint (rowVector rows.length xs) =
      rowVector width (rows.columnProducts width xs) := by
  rw [linearMap, ← Matrix.toEuclideanLin_conjTranspose_eq_adjoint]
  ext j
  have column : (rows.map fun row => row.getD j 0).length = rows.length := List.length_map _
  have entry : (rows.columnProducts width xs).getD j 0 =
      Vector.dot (rows.map fun row => row.getD j 0) xs := by
    simp [columnProducts, columns]
  show _ = (rows.columnProducts width xs).getD j 0
  rw [entry, dot_eq_sum column long]
  simp [Matrix.mulVec, dotProduct, rowVector]

end Vectors

/-! ### The step -/

namespace Descent

variable {jacobian : Matrix ℝ} {residuals d : List ℝ} {damping : ℝ} {width : Nat}

/-- How far a vector of this width is off the equations of a step. -/
noncomputable def stepPrice (jacobian : Matrix ℝ) (residuals : List ℝ) (damping : ℝ) (width : Nat)
    (e : List ℝ) : ℝ :=
  let equations := stepSystem jacobian residuals damping width
  misfit equations.1 equations.2 e

/-- The damped Gauss-Newton step. -/
structure GaussNewton (jacobian : Matrix ℝ) (residuals : List ℝ) (damping : ℝ) (width : Nat)
    (d : List ℝ) : Prop where
  wide : d.length = width
  least : ∀ e : List ℝ, e.length = width →
    stepPrice jacobian residuals damping width d ≤ stepPrice jacobian residuals damping width e
  /-- no other vector is as close -/
  only : ∀ e : List ℝ, e.length = width →
    stepPrice jacobian residuals damping width e ≤ stepPrice jacobian residuals damping width d →
      e = d
  /-- it is the solution of the normal equations -/
  normal_iff : ∀ e : List ℝ, e.length = width →
    (Vector.add (jacobian.columnProducts width (jacobian.map (Vector.dot · e)))
        (Vector.scale damping e) =
      (jacobian.columnProducts width residuals).map (- ·) ↔ e = d)
  within : rowVector width d ∈ jacobian.rowSpace width
  /-- a variable on which no equation depends does not move -/
  still : ∀ j < width, (∀ row ∈ jacobian, row.getD j 0 = 0) → d.getD j 0 = 0
  /-- a direction that no equation sees gets no part -/
  across : ∀ e : List ℝ, e.length = width → (∀ row ∈ jacobian, Vector.dot row e = 0) →
    Vector.dot d e = 0
  gains : cost (Vector.add (jacobian.map (Vector.dot · d)) residuals) + damping * cost d ≤
    cost residuals
  descends : (∃ slope ∈ jacobian.columnProducts width residuals, slope ≠ 0) →
    (∃ x ∈ d, x ≠ 0) ∧ Vector.dot (jacobian.columnProducts width residuals) d < 0

theorem length_of_mem_stepSystem (shape : ∀ row ∈ jacobian, row.length = width) :
    ∀ row ∈ (stepSystem jacobian residuals damping width).1, row.length = width := by
  intro row listed
  rcases List.mem_append.mp listed with linear | penalty
  · exact shape row linear
  · obtain ⟨i, -, rfl⟩ := List.mem_map.mp penalty
    simp [Vector.unit]

theorem length_stepSystem (sides : jacobian.length = residuals.length) :
    (stepSystem jacobian residuals damping width).1.length =
      (stepSystem jacobian residuals damping width).2.length := by
  simp [stepSystem, sides]

section Prices

variable (shape : ∀ row ∈ jacobian, row.length = width) (sides : jacobian.length = residuals.length)
  {e : List ℝ} (wide : e.length = width)

include shape sides wide

theorem cost_add_eq_price : cost (Vector.add (jacobian.map (Vector.dot · e)) residuals) +
    damping * cost e = price (jacobian.linearMap width) (rowVector jacobian.length residuals)
      damping (rowVector width e) := by
  have products : (jacobian.map (Vector.dot · e)).length = jacobian.length := List.length_map _
  have sum : (Vector.add (jacobian.map (Vector.dot · e)) residuals).length = jacobian.length := by
    rw [Vector.length_add, products, ← sides, min_self]
  rw [cost_eq_norm_sq sum, cost_eq_norm_sq wide, rowVector_add products sides.symm,
    ← Matrix.linearMap_rowVector shape wide, price]

/-- What a vector is off the equations of a step is the price of the step. -/
theorem stepPrice_eq (nonneg : 0 ≤ damping) : stepPrice jacobian residuals damping width e =
    price (jacobian.linearMap width) (rowVector jacobian.length residuals) damping
      (rowVector width e) := by
  rw [← cost_add_eq_price shape sides wide, stepPrice]
  subst wide
  exact misfit_stepSystem nonneg sides

/-- The normal equations, entry by entry. -/
theorem balanced_rowVector_iff :
    Balanced (jacobian.linearMap width) (rowVector jacobian.length residuals) damping
        (rowVector width e) ↔
      Vector.add (jacobian.columnProducts width (jacobian.map (Vector.dot · e)))
          (Vector.scale damping e) =
        (jacobian.columnProducts width residuals).map (- ·) := by
  have products : (jacobian.map (Vector.dot · e)).length = jacobian.length := List.length_map _
  have scaled : (Vector.scale damping e).length = width := (List.length_map _).trans wide
  have left : (jacobian.columnProducts width (jacobian.map (Vector.dot · e))).length = width :=
    Matrix.length_columnProducts
  have sum : (Vector.add (jacobian.columnProducts width (jacobian.map (Vector.dot · e)))
      (Vector.scale damping e)).length = width := by
    rw [Vector.length_add, left, scaled, min_self]
  have right : ((jacobian.columnProducts width residuals).map (- ·)).length = width :=
    (List.length_map _).trans Matrix.length_columnProducts
  rw [balanced_iff, Matrix.linearMap_rowVector shape wide, Matrix.adjoint_rowVector products,
    Matrix.adjoint_rowVector sides.symm, ← rowVector_scale, ← rowVector_add left scaled,
    ← rowVector_neg]
  exact ⟨rowVector_injective sum right, congrArg _⟩

end Prices

theorem dot_unit_right {xs : List ℝ} (long : xs.length = width) {j : Nat} (inside : j < width) :
    Vector.dot xs (Vector.unit width j) = xs.getD j 0 := by
  rw [dot_eq_sum long (by simp [Vector.unit]), Finset.sum_eq_single ⟨j, inside⟩]
  · simp [Vector.unit, inside]
  · intro i _ other
    have apart : (i : Nat) ≠ j := fun same => other (Fin.ext same)
    simp [Vector.unit, apart]
  · exact fun absent => absurd (Finset.mem_univ _) absent

/-- **A balanced vector is the step.** -/
theorem gaussNewton_of_balanced (shape : ∀ row ∈ jacobian, row.length = width)
    (sides : jacobian.length = residuals.length) (positive : 0 < damping) (wide : d.length = width)
    (balanced : Balanced (jacobian.linearMap width) (rowVector jacobian.length residuals) damping
      (rowVector width d)) : GaussNewton jacobian residuals damping width d := by
  have priced {e : List ℝ} (long : e.length = width) :=
    stepPrice_eq shape sides long positive.le
  have across (e : List ℝ) (long : e.length = width)
      (unseen : ∀ row ∈ jacobian, Vector.dot row e = 0) : Vector.dot d e = 0 := by
    rw [dot_eq_inner wide long]
    exact inner_eq_zero_of_balanced positive balanced
      (Matrix.linearMap_rowVector_eq_zero shape long unseen)
  constructor
  case wide => exact wide
  case least =>
    intro e long
    rw [priced wide, priced long]
    exact least_of_balanced positive balanced _
  case only =>
    intro e long small
    rw [priced wide, priced long] at small
    exact rowVector_injective long wide (eq_of_price_le positive balanced small)
  case normal_iff =>
    intro e long
    rw [← balanced_rowVector_iff shape sides long]
    constructor
    · intro balanced'
      exact rowVector_injective long wide
        (eq_of_price_le positive balanced (least_of_balanced positive balanced' _))
    · rintro rfl
      exact balanced
  case within =>
    rw [← Submodule.orthogonal_orthogonal (jacobian.rowSpace width), ← Matrix.ker_linearMap]
    refine (Submodule.mem_orthogonal' _ _).mpr fun v unseen => ?_
    exact inner_eq_zero_of_balanced positive balanced (LinearMap.mem_ker.mp unseen)
  case still =>
    intro j inside blank
    have unit : (Vector.unit width j : List ℝ).length = width := by simp [Vector.unit]
    rw [← dot_unit_right wide inside]
    refine across _ unit fun row listed => ?_
    rw [dot_unit_right (shape row listed) inside, blank row listed]
  case across => exact across
  case gains =>
    have below := least_of_balanced positive balanced 0
    rw [← cost_add_eq_price shape sides wide] at below
    refine below.trans (le_of_eq ?_)
    rw [price, map_zero, zero_add, norm_zero, cost_eq_norm_sq sides.symm]
    ring
  case descends =>
    rintro ⟨slope, listed, nonzero⟩
    have entries : (jacobian.columnProducts width residuals).length = width :=
      Matrix.length_columnProducts
    have steep : (jacobian.linearMap width).adjoint (rowVector jacobian.length residuals) ≠ 0 := by
      rw [Matrix.adjoint_rowVector sides.symm, ne_eq, rowVector_eq_zero_iff entries]
      exact fun flat => nonzero (flat slope listed)
    obtain ⟨moves, down⟩ := inner_adjoint_lt positive balanced steep
    rw [Matrix.adjoint_rowVector sides.symm, ← dot_eq_inner entries wide] at down
    rw [ne_eq, rowVector_eq_zero_iff wide] at moves
    push Not at moves
    exact ⟨moves, down⟩

/-- **There is exactly one damped Gauss-Newton step**, and every exact method finds it, whatever the
shape and the rank of the Jacobian. -/
theorem exists_gaussNewton (shape : ∀ row ∈ jacobian, row.length = width)
    (sides : jacobian.length = residuals.length) (positive : 0 < damping) :
    ∃ d, GaussNewton jacobian residuals damping width d ∧
      ∀ methods : Methods ℝ, methods.Exact → ∀ (problem : Problem ℝ) (p : Position ℝ),
        problem.jacobian p.x = jacobian → p.residuals = residuals → p.damping = damping →
          p.x.length = width → step? methods problem p = some d := by
  have shape' : ∀ row ∈ (stepSystem jacobian residuals damping width).1, row.length = width :=
    length_of_mem_stepSystem shape
  have sides' : (stepSystem jacobian residuals damping width).1.length =
      (stepSystem jacobian residuals damping width).2.length := length_stepSystem sides
  obtain ⟨d, wide, least⟩ := exists_closest shape' sides'
  have balanced : Balanced (jacobian.linearMap width) (rowVector jacobian.length residuals) damping
      (rowVector width d) := by
    refine balanced_of_least fun v => ?_
    obtain ⟨e, long, rfl⟩ := exists_rowVector_eq v
    rw [← stepPrice_eq shape sides wide positive.le, ← stepPrice_eq shape sides long positive.le]
    exact least e long
  have step := gaussNewton_of_balanced shape sides positive wide balanced
  refine ⟨d, step, fun methods exact problem p linear rest damped long => ?_⟩
  obtain ⟨found, solved, closest⟩ := exact width _ _ shape' sides'
  have same := step.only found (methods.length_step solved) (closest d wide)
  rw [step?, linear, rest, damped, long, ← same]
  exact solved

/-- One equation on two of three variables: both go the same way, and the third one stays. -/
theorem exists_gaussNewton_shared :
    (∀ row ∈ [[(1 : ℝ), 1, 0]], row.length = 3) ∧ (0 : ℝ) < 1 ∧ Methods.closest.Exact ∧
      GaussNewton [[1, 1, 0]] [-3] 1 3 [1, 1, 0] ∧
      step? Methods.closest ⟨fun _ => [-3], fun _ => [[1, 1, 0]]⟩ ⟨[0, 0, 0], [-3], 9, 1⟩ =
        some [1, 1, 0] := by
  have shape : ∀ row ∈ [[(1 : ℝ), 1, 0]], row.length = 3 := by simp
  have sides : [[(1 : ℝ), 1, 0]].length = [(-3 : ℝ)].length := rfl
  obtain ⟨d, step, finds⟩ := exists_gaussNewton shape sides one_pos
  have solves : [(1 : ℝ), 1, 0] = d := by
    refine (step.normal_iff [1, 1, 0] rfl).mp ?_
    norm_num [Matrix.columnProducts, Matrix.columns, Vector.dot, Vector.sum, Vector.add,
      Vector.scale, List.range_succ]
  subst solves
  exact ⟨shape, one_pos, Methods.exact_closest, step,
    finds _ Methods.exact_closest _ _ rfl rfl rfl rfl⟩

end Descent

end PlaneSketch
