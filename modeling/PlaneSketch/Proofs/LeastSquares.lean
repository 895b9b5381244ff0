import Mathlib
import PlaneSketch.Descent
import PlaneSketch.Scalar.Real

/-!
Sums of squares, and steps that make them as small as they can be.

A least-squares method is exact when it finds, for every linear system, a vector that no other comes
closer to the target. There is such a method: the closest point of the span of the columns is one.
-/

namespace PlaneSketch

/-! ### Sums over the reals -/

theorem Vector.sum_real (xs : List ℝ) : Vector.sum xs = xs.sum := by
  rw [Vector.sum, List.sum_eq_foldl]

theorem Vector.dot_replicate_zero (row : List ℝ) (n : Nat) :
    Vector.dot row (List.replicate n 0) = 0 := by
  rw [Vector.dot, Vector.sum_real]
  refine List.sum_eq_zero fun product listed => ?_
  obtain ⟨i, inside, rfl⟩ := List.getElem_of_mem listed
  simp

theorem Vector.dot_append {xs ys : List ℝ} (long : xs.length = ys.length) (xs' ys' : List ℝ) :
    Vector.dot (xs ++ xs') (ys ++ ys') = Vector.dot xs ys + Vector.dot xs' ys' := by
  simp only [Vector.dot, Vector.sum_real, List.zipWith_append long, List.sum_append]

namespace Descent

theorem cost_real (rs : List ℝ) : cost rs = (rs.map fun r => r * r).sum := by
  suffices fold : ∀ sum : ℝ, rs.foldl (fun sum r => Scalar.multiplyAdd r r sum) sum =
      sum + (rs.map fun r => r * r).sum from (fold 0).trans (zero_add _)
  induction rs with
  | nil => simp
  | cons r rs ih =>
    intro sum
    rw [List.foldl_cons, ih, List.map_cons, List.sum_cons]
    show r * r + sum + _ = _
    ring

@[simp] theorem cost_nil : cost ([] : List ℝ) = 0 := rfl

@[simp] theorem cost_cons (r : ℝ) (rs : List ℝ) : cost (r :: rs) = r * r + cost rs := by
  simp [cost_real]

@[simp] theorem cost_append (rs ss : List ℝ) : cost (rs ++ ss) = cost rs + cost ss := by
  simp [cost_real]

theorem cost_nonneg (rs : List ℝ) : 0 ≤ cost rs := by
  rw [cost_real]
  refine List.sum_nonneg fun s listed => ?_
  obtain ⟨r, -, rfl⟩ := List.mem_map.mp listed
  exact mul_self_nonneg r

theorem dot_self_eq_cost (rs : List ℝ) : Vector.dot rs rs = cost rs := by
  rw [Vector.dot, Vector.sum_real, List.zipWith_self, cost_real]

/-- There is no cost exactly where all residuals are zero. -/
theorem cost_eq_zero_iff {rs : List ℝ} : cost rs = 0 ↔ ∀ r ∈ rs, r = 0 := by
  induction rs with
  | nil => simp
  | cons r rs ih =>
    rw [cost_cons, add_eq_zero_iff_of_nonneg (mul_self_nonneg r) (cost_nonneg rs),
      mul_self_eq_zero, ih, List.forall_mem_cons]

theorem cost_map_mul (k : ℝ) (rs : List ℝ) : cost (rs.map (k * ·)) = k * k * cost rs := by
  induction rs with
  | nil => simp
  | cons r rs ih =>
    rw [List.map_cons, cost_cons, cost_cons, ih]
    ring

/-- The square of a sum, entry by entry. -/
theorem cost_add {rs ss : List ℝ} (long : rs.length = ss.length) :
    cost (Vector.add rs ss) = cost rs + 2 * Vector.dot rs ss + cost ss := by
  induction rs generalizing ss with
  | nil =>
    obtain rfl := List.length_eq_zero_iff.mp long.symm
    simp [Vector.add, Vector.dot, Vector.sum]
  | cons r rs ih =>
    cases ss with
    | nil => cases long
    | cons s ss =>
      have rest := ih (Nat.succ.inj long)
      rw [Vector.add, Vector.dot, Vector.sum_real] at rest ⊢
      simp only [List.zipWith_cons_cons, cost_cons, List.sum_cons, rest]
      ring

end Descent

/-! ### Exact least squares -/

/-- How far a linear system is off its target at a vector: the sum of squares of what is left. -/
noncomputable def misfit (rows : Matrix ℝ) (target d : List ℝ) : ℝ :=
  Descent.cost (Vector.sub (rows.map (Vector.dot · d)) target)

/-- Every system gets a vector, and no vector comes closer to the target. -/
def Methods.Exact (methods : Methods ℝ) : Prop :=
  ∀ (width : Nat) (rows : Matrix ℝ) (target : List ℝ), (∀ row ∈ rows, row.length = width) →
    rows.length = target.length →
    ∃ d, methods.leastSquares? width rows target = some d ∧
      ∀ e, e.length = width → misfit rows target d ≤ misfit rows target e

/-- The linear map of a matrix. -/
noncomputable def Matrix.linearMap (rows : Matrix ℝ) (width : Nat) :
    EuclideanSpace ℝ (Fin width) →ₗ[ℝ] EuclideanSpace ℝ (Fin rows.length) :=
  Matrix.toEuclideanLin (Matrix.of fun i j => (rows.get i).getD j 0)

theorem dot_ofFn {width : Nat} (row : List ℝ) (shape : row.length = width) (e : Fin width → ℝ) :
    Vector.dot row (List.ofFn e) = ∑ j : Fin width, row.getD j 0 * e j := by
  subst shape
  rw [Vector.dot, Vector.sum_real]
  have zipped : List.zipWith (· * ·) row (List.ofFn e) =
      List.ofFn fun j => row.getD j 0 * e j := by
    refine List.ext_getElem (by simp) fun i _ _ => ?_
    simp
  rw [zipped, List.sum_ofFn]

theorem exists_ofFn_eq {n : Nat} {xs : List ℝ} (long : xs.length = n) :
    ∃ f : Fin n → ℝ, List.ofFn f = xs := by
  subst long
  exact ⟨xs.get, List.ofFn_get xs⟩

/-- The misfit is a distance squared. -/
theorem misfit_ofFn {width : Nat} {rows : Matrix ℝ} (shape : ∀ row ∈ rows, row.length = width)
    (target : Fin rows.length → ℝ) (e : EuclideanSpace ℝ (Fin width)) :
    misfit rows (List.ofFn target) (List.ofFn e) =
      ‖WithLp.toLp 2 target - rows.linearMap width e‖ ^ 2 := by
  have left : Vector.sub (rows.map (Vector.dot · (List.ofFn e))) (List.ofFn target) =
      List.ofFn fun i => (rows.linearMap width e) i - target i := by
    refine List.ext_getElem (by simp [Vector.sub]) fun i inside _ => ?_
    have row : i < rows.length := by simpa [Vector.sub] using inside
    simp [Vector.sub, dot_ofFn _ (shape _ (List.getElem_mem row)), Matrix.linearMap,
      Matrix.mulVec, dotProduct]
  rw [misfit, left, Descent.cost_real, List.map_ofFn, List.sum_ofFn, EuclideanSpace.real_norm_sq_eq]
  refine Finset.sum_congr rfl fun i _ => ?_
  simp only [Function.comp, PiLp.sub_apply]
  ring

/-- **Every system has a closest vector.** -/
theorem exists_closest {width : Nat} {rows : Matrix ℝ} {target : List ℝ}
    (shape : ∀ row ∈ rows, row.length = width) (sides : rows.length = target.length) :
    ∃ d : List ℝ, d.length = width ∧
      ∀ e, e.length = width → misfit rows target d ≤ misfit rows target e := by
  obtain ⟨goal, rfl⟩ := exists_ofFn_eq sides.symm
  let span := LinearMap.range (rows.linearMap width)
  obtain ⟨closest, ⟨d, rfl⟩, least⟩ := span.exists_norm_eq_iInf_of_complete_subspace
    span.complete_of_finiteDimensional (WithLp.toLp 2 goal)
  refine ⟨List.ofFn d, List.length_ofFn, fun e wide => ?_⟩
  obtain ⟨e, rfl⟩ := exists_ofFn_eq wide
  have smaller : ‖WithLp.toLp 2 goal - rows.linearMap width d‖ ≤
      ‖WithLp.toLp 2 goal - rows.linearMap width (WithLp.toLp 2 e)‖ := by
    rw [least]
    exact ciInf_le ⟨0, by rintro _ ⟨w, rfl⟩; exact norm_nonneg _⟩
      (⟨rows.linearMap width (WithLp.toLp 2 e), LinearMap.mem_range_self _ _⟩ : span)
  have fit := misfit_ofFn shape goal (WithLp.toLp 2 e)
  dsimp only at fit
  rw [misfit_ofFn shape, fit]
  gcongr

open Classical in
/-- Closest vectors, where rows and target fit together. -/
noncomputable def Methods.closest : Methods ℝ where
  leastSquares? width rows target :=
    if fits : (∀ row ∈ rows, row.length = width) ∧ rows.length = target.length then
      some (exists_closest fits.1 fits.2).choose
    else none
  length_step := by
    intro width rows target d found
    split at found
    · rename_i fits
      cases found
      exact (exists_closest fits.1 fits.2).choose_spec.1
    · cases found
  singularValues? := Methods.orthogonal.singularValues?

/-- **There is an exact method.** -/
theorem Methods.exact_closest : Methods.closest.Exact := by
  intro width rows target shape sides
  exact ⟨_, dif_pos ⟨shape, sides⟩, (exists_closest shape sides).choose_spec.2⟩

/-! ### The system of a step -/

theorem dot_unit {e : List ℝ} {i : Nat} (inside : i < e.length) (k : ℝ) :
    Vector.dot ((Vector.unit e.length i).map (k * ·)) e = k * e[i] := by
  have entries := dot_ofFn ((Vector.unit e.length i).map (k * ·)) (by simp [Vector.unit]) e.get
  rw [List.ofFn_get] at entries
  rw [entries, Finset.sum_eq_single ⟨i, inside⟩]
  · simp [Vector.unit, inside]
  · intro j _ other
    have apart : (j : Nat) ≠ i := fun same => other (Fin.ext same)
    simp [Vector.unit, apart]
  · exact fun absent => absurd (Finset.mem_univ _) absent

/-- A step is off by the linearised residuals and by the penalty on its length. -/
theorem misfit_stepSystem {jacobian : Matrix ℝ} {residuals e : List ℝ} {damping : ℝ}
    (positive : 0 ≤ damping) (sides : jacobian.length = residuals.length) :
    misfit (Descent.stepSystem jacobian residuals damping e.length).1
        (Descent.stepSystem jacobian residuals damping e.length).2 e =
      Descent.cost (Vector.add (jacobian.map (Vector.dot · e)) residuals) +
        damping * Descent.cost e := by
  have penalty : ((List.range e.length).map fun i =>
      Vector.dot ((Vector.unit e.length i).map (Scalar.sqrt damping * ·)) e) =
        e.map (Scalar.sqrt damping * ·) := by
    refine List.ext_getElem (by simp) fun i _ inside => ?_
    have inside' : i < e.length := by simpa using inside
    simp [dot_unit inside']
  have left : Vector.sub ((Descent.stepSystem jacobian residuals damping e.length).1.map
      (Vector.dot · e)) (Descent.stepSystem jacobian residuals damping e.length).2 =
        Vector.add (jacobian.map (Vector.dot · e)) residuals ++
          e.map (Scalar.sqrt damping * ·) := by
    rw [Descent.stepSystem, Vector.sub, List.map_append, List.zipWith_append (by simp [sides]),
      List.map_map, Function.comp_def, penalty]
    congr 1
    · rw [List.zipWith_map_right, Vector.add]
      congr 2
      funext a r
      exact sub_neg_eq_add a r
    · refine List.ext_getElem (by simp) fun i _ _ => ?_
      simp
  have root : Scalar.sqrt damping * Scalar.sqrt damping = damping := Real.mul_self_sqrt positive
  rw [misfit, left, Descent.cost_append, Descent.cost_map_mul, root]

end PlaneSketch
