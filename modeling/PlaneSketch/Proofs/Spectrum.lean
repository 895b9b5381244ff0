import Mathlib

/-!
Singular values, counted by subspaces.

How many singular values of a linear map are above a bound is told by the subspaces on which the map
stretches every vector beyond the bound, and by those on which it stretches none.

* `lt_singularValues`: on a subspace of dimension `k` all vectors are stretched beyond the bound
  only if `k` singular values are above it.
* `singularValues_le`: a subspace of codimension `k` on which no vector is stretched beyond the
  bound leaves at most `k` singular values above it.
* `singularValues_mono`: a map that stretches every vector at most as far as another has smaller
  singular values.
* `lt_singularValues_of_steps`: rows that go up in steps, each in a direction of its own that no row
  before it reaches, leave as many singular values large; how large, their determinant tells.
-/

namespace PlaneSketch.Spectrum

open Module InnerProductSpace

variable {E F G : Type} [NormedAddCommGroup E] [InnerProductSpace ℝ E] [FiniteDimensional ℝ E]
  [NormedAddCommGroup F] [InnerProductSpace ℝ F] [FiniteDimensional ℝ F]
  [NormedAddCommGroup G] [InnerProductSpace ℝ G] [FiniteDimensional ℝ G]

/-- Directions that a map takes to orthogonal ones, stretched by its singular values. -/
noncomputable def axes (T : E →ₗ[ℝ] F) : OrthonormalBasis (Fin (finrank ℝ E)) ℝ E :=
  T.isSymmetric_adjoint_comp_self.eigenvectorBasis rfl

variable (T : E →ₗ[ℝ] F) {bound : ℝ} {i : Nat}

/-- A map stretches each part of a vector by its singular value. -/
theorem norm_map_sq (v : E) :
    ‖T v‖ ^ 2 = ∑ j : Fin (finrank ℝ E), T.singularValues j ^ 2 * ⟪axes T j, v⟫_ℝ ^ 2 := by
  have part (j : Fin (finrank ℝ E)) : ⟪axes T j, (T.adjoint ∘ₗ T) v⟫_ℝ =
      T.singularValues j ^ 2 * ⟪axes T j, v⟫_ℝ := by
    rw [← T.isSymmetric_adjoint_comp_self, axes, LinearMap.IsSymmetric.apply_eigenvectorBasis,
      inner_smul_left, T.sq_singularValues_fin rfl j]
    rfl
  calc ‖T v‖ ^ 2 = ⟪T v, T v⟫_ℝ := (real_inner_self_eq_norm_sq _).symm
    _ = ⟪v, (T.adjoint ∘ₗ T) v⟫_ℝ := (LinearMap.adjoint_inner_right T v (T v)).symm
    _ = ∑ j, ⟪v, axes T j⟫_ℝ * ⟪axes T j, (T.adjoint ∘ₗ T) v⟫_ℝ :=
      ((axes T).sum_inner_mul_inner v _).symm
    _ = ∑ j : Fin (finrank ℝ E), T.singularValues j ^ 2 * ⟪axes T j, v⟫_ℝ ^ 2 := by
      refine Finset.sum_congr rfl fun j _ => ?_
      rw [part, real_inner_comm v]
      ring

/-- A subspace of more dimensions than there are conditions holds a vector that meets them. -/
theorem exists_orthogonal {V : Submodule ℝ E} (s : Finset (Fin (finrank ℝ E)))
    (few : s.card < finrank ℝ V) : ∃ v ∈ V, v ≠ 0 ∧ ∀ j ∈ s, ⟪axes T j, v⟫_ℝ = 0 := by
  let parts : V →ₗ[ℝ] (s → ℝ) :=
    LinearMap.pi fun j => (innerSL ℝ (axes T j) : E →ₗ[ℝ] ℝ) ∘ₗ V.subtype
  have nontrivial : parts.ker ≠ ⊥ := by
    refine LinearMap.ker_ne_bot_of_finrank_lt ?_
    rwa [finrank_fintype_fun_eq_card, Fintype.card_coe]
  obtain ⟨v, vanishes, nonzero⟩ := Submodule.exists_mem_ne_zero_of_ne_bot nontrivial
  refine ⟨v, v.2, fun zero => nonzero (Subtype.ext zero), fun j member => ?_⟩
  exact congrFun (LinearMap.mem_ker.mp vanishes) ⟨j, member⟩

/-- Where the first parts vanish, the next singular value bounds the stretching. -/
theorem norm_map_le {v : E}
    (vanish : ∀ j : Fin (finrank ℝ E), (j : Nat) < i → ⟪axes T j, v⟫_ℝ = 0) :
    ‖T v‖ ≤ T.singularValues i * ‖v‖ := by
  refine abs_le_of_sq_le_sq' ?_ (mul_nonneg (T.singularValues_nonneg i) (norm_nonneg v)) |>.2
  rw [mul_pow, norm_map_sq, ← (axes T).sum_sq_inner_right v, Finset.mul_sum]
  refine Finset.sum_le_sum fun j _ => ?_
  by_cases early : (j : Nat) < i
  · rw [vanish j early]
    simp
  · have order := T.singularValues_antitone (not_lt.mp early)
    have nonneg := T.singularValues_nonneg j
    gcongr

/-- Where the last parts vanish, the singular value before them bounds the stretching from below. -/
theorem le_norm_map {v : E}
    (vanish : ∀ j : Fin (finrank ℝ E), i < (j : Nat) → ⟪axes T j, v⟫_ℝ = 0) :
    T.singularValues i * ‖v‖ ≤ ‖T v‖ := by
  refine abs_le_of_sq_le_sq' ?_ (norm_nonneg _) |>.2
  rw [mul_pow, norm_map_sq, ← (axes T).sum_sq_inner_right v, Finset.mul_sum]
  refine Finset.sum_le_sum fun j _ => ?_
  by_cases late : i < (j : Nat)
  · rw [vanish j late]
    simp
  · have order := T.singularValues_antitone (not_lt.mp late)
    have nonneg := T.singularValues_nonneg i
    gcongr

/-- **Stretching a subspace beyond a bound takes as many singular values above it** as the subspace
has dimensions. -/
theorem lt_singularValues {V : Submodule ℝ E} (beyond : ∀ v ∈ V, v ≠ 0 → bound * ‖v‖ < ‖T v‖)
    (inside : i < finrank ℝ V) : bound < T.singularValues i := by
  have few : (Finset.univ.filter fun j : Fin (finrank ℝ E) => (j : Nat) < i).card <
      finrank ℝ V := by
    rw [Fin.card_filter_val_lt]
    omega
  -- a vector of the subspace without parts along the first directions
  obtain ⟨v, member, nonzero, vanish⟩ := exists_orthogonal T _ few
  have above := beyond v member nonzero
  have below := norm_map_le T (i := i) (v := v) fun j early => vanish j (by simpa using early)
  exact lt_of_mul_lt_mul_right (above.trans_le below) (norm_nonneg v)

/-- **A subspace on which nothing is stretched beyond a bound** leaves at most as many singular
values above it as it lacks dimensions. -/
theorem singularValues_le (nonneg : 0 ≤ bound) {W : Submodule ℝ E}
    (within : ∀ w ∈ W, ‖T w‖ ≤ bound * ‖w‖) (large : finrank ℝ E ≤ finrank ℝ W + i) :
    T.singularValues i ≤ bound := by
  by_cases outside : finrank ℝ E ≤ i
  · rwa [T.singularValues_of_finrank_le outside]
  have few : (Finset.univ.filter fun j : Fin (finrank ℝ E) => i < (j : Nat)).card <
      finrank ℝ W := by
    have both := Finset.card_filter_add_card_filter_not (s := Finset.univ)
      (fun j : Fin (finrank ℝ E) => (j : Nat) < i + 1)
    simp only [Fin.card_filter_val_lt, Finset.card_univ, Fintype.card_fin, not_lt,
      Nat.succ_le_iff] at both
    omega
  obtain ⟨w, member, nonzero, vanish⟩ := exists_orthogonal T _ few
  have above := le_norm_map T (i := i) (v := w) fun j late => vanish j (by simpa using late)
  exact le_of_mul_le_mul_right (above.trans (within w member)) (norm_pos_iff.mpr nonzero)

/-- There is a subspace that no singular value from one on leaves out, and on which that one bounds
the stretching. -/
theorem exists_norm_map_le (i : Nat) : ∃ W : Submodule ℝ E, finrank ℝ E ≤ finrank ℝ W + i ∧
    ∀ w ∈ W, ‖T w‖ ≤ T.singularValues i * ‖w‖ := by
  let early := fun j : Fin (min i (finrank ℝ E)) => axes T (j.castLE (min_le_right _ _))
  refine ⟨(Submodule.span ℝ (Set.range early))ᗮ, ?_,
    fun w member => norm_map_le T fun j before => ?_⟩
  · have whole := (Submodule.span ℝ (Set.range early)).finrank_add_finrank_orthogonal
    have few := finrank_range_le_card (R := ℝ) early
    rw [Set.finrank, Fintype.card_fin] at few
    omega
  · refine Submodule.inner_right_of_mem_orthogonal (Submodule.subset_span ?_) member
    exact ⟨⟨j, lt_min before j.isLt⟩, rfl⟩

/-- **A map that stretches every vector at most as far as another has smaller singular values.** -/
theorem singularValues_mono {T : E →ₗ[ℝ] F} {S : E →ₗ[ℝ] G} (less : ∀ v, ‖T v‖ ≤ ‖S v‖) (i : Nat) :
    T.singularValues i ≤ S.singularValues i := by
  obtain ⟨W, large, within⟩ := exists_norm_map_le S i
  exact singularValues_le T (S.singularValues_nonneg i)
    (fun w member => (less w).trans (within w member)) large

/-- Maps that stretch every vector alike have the same singular values. -/
theorem singularValues_congr {T : E →ₗ[ℝ] F} {S : E →ₗ[ℝ] G} (same : ∀ v, ‖T v‖ = ‖S v‖) (i : Nat) :
    T.singularValues i = S.singularValues i :=
  le_antisymm (singularValues_mono (fun v => (same v).le) i)
    (singularValues_mono (fun v => (same v).ge) i)

/-- No vector is stretched beyond the first singular value. -/
theorem norm_map_le_first (v : E) : ‖T v‖ ≤ T.singularValues 0 * ‖v‖ :=
  norm_map_le T fun _ early => absurd early (Nat.not_lt_zero _)

/-- No vector is stretched less than by the last singular value. -/
theorem last_le_norm_map (whole : finrank ℝ E ≤ i + 1) (v : E) :
    T.singularValues i * ‖v‖ ≤ ‖T v‖ :=
  le_norm_map T fun j late => absurd j.isLt (by omega)

/-! ### Steps -/

section Steps

variable {k : Nat} {cap step : ℝ}

/-- All singular values but the last one being capped, a large determinant is left to the last. -/
theorem lt_last_singularValue (whole : finrank ℝ E = k + 1) (capped : ∀ v, ‖T v‖ ≤ cap * ‖v‖)
    (nonneg : 0 ≤ cap) (large : bound * cap ^ k < T.normDet) : bound < T.singularValues k := by
  have below (j : Nat) : T.singularValues j ≤ cap := by
    refine singularValues_le T nonneg (W := ⊤) (fun w _ => capped w) ?_
    rw [finrank_top]
    exact Nat.le_add_right _ _
  have others : ∏ j ∈ Finset.range k, T.singularValues j ≤ cap ^ k := by
    refine le_trans
      (Finset.prod_le_prod (fun j _ => T.singularValues_nonneg j) fun j _ => below j) (le_of_eq ?_)
    rw [Finset.prod_const, Finset.card_range]
  rw [T.normDet_eq_prod_singularValues, whole, Finset.prod_range_succ] at large
  refine lt_of_mul_lt_mul_right (large.trans_le ?_) (pow_nonneg nonneg k)
  rw [mul_comm]
  exact mul_le_mul_of_nonneg_left others (T.singularValues_nonneg k)

variable {H : Type} [NormedAddCommGroup H] [InnerProductSpace ℝ H] {row q : Fin (k + 1) → H}

/-- The parts of directions along rows. -/
def parts (row q : Fin (k + 1) → H) : Matrix (Fin (k + 1)) (Fin (k + 1)) ℝ :=
  Matrix.of fun i j => ⟪row i, q j⟫_ℝ

/-- Directions combined with given weights. -/
noncomputable def combine (q : Fin (k + 1) → H) : EuclideanSpace ℝ (Fin (k + 1)) →ₗ[ℝ] H where
  toFun y := ∑ j, y j • q j
  map_add' y z := by simp [add_smul, Finset.sum_add_distrib]
  map_smul' c y := by simp [Finset.smul_sum, mul_smul]

theorem combine_apply (y : EuclideanSpace ℝ (Fin (k + 1))) : combine q y = ∑ j, y j • q j := rfl

theorem norm_combine (orthonormal : Orthonormal ℝ q) (y : EuclideanSpace ℝ (Fin (k + 1))) :
    ‖combine q y‖ = ‖y‖ := by
  refine (sq_eq_sq₀ (norm_nonneg _) (norm_nonneg _)).mp ?_
  rw [← real_inner_self_eq_norm_sq, combine_apply, orthonormal.inner_sum, EuclideanSpace.norm_sq_eq]
  refine Finset.sum_congr rfl fun j _ => ?_
  simp [sq]

theorem toEuclideanLin_parts (y : EuclideanSpace ℝ (Fin (k + 1))) (i : Fin (k + 1)) :
    (parts row q).toEuclideanLin y i = ⟪row i, combine q y⟫_ℝ := by
  rw [combine_apply, inner_sum]
  simp [parts, Matrix.mulVec, dotProduct, inner_smul_right, mul_comm]

/-- Going up in steps, the parts have the product of the steps as determinant. -/
theorem normDet_parts (later : ∀ i j, i < j → ⟪row i, q j⟫_ℝ = 0) :
    (parts row q).toEuclideanLin.normDet = |∏ i, ⟪row i, q i⟫_ℝ| := by
  rw [LinearMap.normDet_eq_norm_det_toMatrix _ (EuclideanSpace.basisFun (Fin (k + 1)) ℝ)
    (EuclideanSpace.basisFun (Fin (k + 1)) ℝ), Real.norm_eq_abs,
    Matrix.toEuclideanLin_eq_toLin_orthonormal, LinearMap.toMatrix_toLin,
    Matrix.det_of_isLowerTriangular]
  · rfl
  · intro i j before
    exact later i j before

/-- **Rows that go up in steps along some directions** leave as many singular values large. -/
theorem lt_singularValues_of_steps [FiniteDimensional ℝ H] {S : H →ₗ[ℝ] F}
    (orthonormal : Orthonormal ℝ q) (steep : ∀ i, step < ⟪row i, q i⟫_ℝ)
    (later : ∀ i j, i < j → ⟪row i, q j⟫_ℝ = 0) (positive : 0 < step)
    (reached : ∀ x, ∑ i, ⟪row i, x⟫_ℝ ^ 2 ≤ ‖S x‖ ^ 2)
    (capped : ∀ x, ‖S x‖ ≤ cap * ‖x‖) (nonneg : 0 ≤ cap) (low : bound * cap ^ k ≤ step ^ (k + 1)) :
    bound < S.singularValues k := by
  -- the rows see no more of a combination of the directions than the map does
  have short (y : EuclideanSpace ℝ (Fin (k + 1))) :
      ‖(parts row q).toEuclideanLin y‖ ≤ ‖S (combine q y)‖ := by
    refine (sq_le_sq₀ (norm_nonneg _) (norm_nonneg _)).mp ?_
    rw [EuclideanSpace.real_norm_sq_eq]
    simpa only [toEuclideanLin_parts] using reached (combine q y)
  have large : bound * cap ^ k < (parts row q).toEuclideanLin.normDet := by
    have product : step ^ (k + 1) < ∏ i, ⟪row i, q i⟫_ℝ := by
      have factors := Finset.prod_lt_prod_of_nonempty (s := Finset.univ) (fun _ _ => positive)
        (fun i (_ : i ∈ Finset.univ) => steep i) Finset.univ_nonempty
      simpa using factors
    rw [normDet_parts later]
    exact (low.trans_lt product).trans_le (le_abs_self _)
  have last := lt_last_singularValue (parts row q).toEuclideanLin finrank_euclideanSpace_fin
    (fun y => (short y).trans ((capped _).trans_eq (by rw [norm_combine orthonormal]))) nonneg large
  have injective : Function.Injective (combine q) := by
    refine (injective_iff_map_eq_zero _).mpr fun y zero => ?_
    rw [← norm_eq_zero, ← norm_combine orthonormal, zero, norm_zero]
  -- and so the map stretches all of what the directions span
  refine lt_singularValues S (V := (combine q).range) ?_ ?_
  · rintro _ ⟨y, rfl⟩ nonzero
    have nonzero' : y ≠ 0 := fun zero => nonzero (by rw [zero, map_zero])
    calc bound * ‖combine q y‖ = bound * ‖y‖ := by rw [norm_combine orthonormal]
      _ < (parts row q).toEuclideanLin.singularValues k * ‖y‖ :=
        mul_lt_mul_of_pos_right last (norm_pos_iff.mpr nonzero')
      _ ≤ ‖(parts row q).toEuclideanLin y‖ :=
        last_le_norm_map (parts row q).toEuclideanLin finrank_euclideanSpace_fin.le y
      _ ≤ ‖S (combine q y)‖ := short y
  · rw [LinearMap.finrank_range_of_inj injective, finrank_euclideanSpace_fin]
    exact Nat.lt_succ_self k

end Steps

end PlaneSketch.Spectrum
