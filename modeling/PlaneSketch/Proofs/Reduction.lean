import Mathlib
import PlaneSketch.LinearAlgebra.Rank
import PlaneSketch.Proofs.LeastSquares
import PlaneSketch.Proofs.Spectrum

/-!
Row reduction over the real numbers.

Rows are taken one by one. A row is blamed when what is left of it beyond the rows kept before it is
no longer than a tolerance; else it is kept, and what is left of it, at length one, is a new
direction.

* `Reduces`: what a reduction finds, in terms of vectors.
* `Reduces.directions`, `Reduces.stepped`: the directions are orthonormal, and the rows kept reach
  further in their own direction than the tolerance, and not into later ones.
* `Reduces.sum_sq_le`: across the directions, the rows are no longer than the tolerance.
-/

namespace PlaneSketch

open Module InnerProductSpace

/-! ### Items at positions -/

section Positions

variable {σ τ : Type}

/-- The items of a list that stand at none of some positions; the first one stands at `start`. -/
def withoutPositions (positions : List Nat) : Nat → List σ → List σ
  | _, [] => []
  | start, a :: rest =>
    if start ∈ positions then withoutPositions positions (start + 1) rest
    else a :: withoutPositions positions (start + 1) rest

variable {positions others : List Nat} {start : Nat} {items : List σ}

theorem withoutPositions_map (f : σ → τ) :
    withoutPositions positions start (items.map f) =
      (withoutPositions positions start items).map f := by
  induction items generalizing start with
  | nil => rfl
  | cons a items ih =>
    rw [List.map_cons, withoutPositions, withoutPositions, ih]
    split <;> rfl

/-- Only positions from the first on count. -/
theorem withoutPositions_congr (same : ∀ i, start ≤ i → (i ∈ positions ↔ i ∈ others)) :
    withoutPositions positions start items = withoutPositions others start items := by
  induction items generalizing start with
  | nil => rfl
  | cons a items ih =>
    have rest := ih fun i after => same i (Nat.le_of_succ_le after)
    rw [withoutPositions, withoutPositions, rest]
    by_cases here : start ∈ positions
    · rw [if_pos here, if_pos ((same start le_rfl).mp here)]
    · rw [if_neg here, if_neg (mt (same start le_rfl).mpr here)]

/-- The more positions are left out, the fewer items are left. -/
theorem withoutPositions_sublist (fewer : positions ⊆ others) :
    (withoutPositions others start items).Sublist (withoutPositions positions start items) := by
  induction items generalizing start with
  | nil => exact .slnil
  | cons a items ih =>
    rw [withoutPositions, withoutPositions]
    by_cases here : start ∈ positions
    · rw [if_pos here, if_pos (fewer here)]
      exact ih
    · rw [if_neg here]
      split
      · exact ih.cons a
      · exact ih.cons_cons a

theorem withoutPositions_nil : withoutPositions [] start items = items := by
  induction items generalizing start with
  | nil => rfl
  | cons a items ih => rw [withoutPositions, if_neg List.not_mem_nil, ih]

theorem withoutPositions_sublist_self :
    (withoutPositions positions start items).Sublist items := by
  have whole : (withoutPositions positions start items).Sublist
      (withoutPositions [] start items) := withoutPositions_sublist (List.nil_subset positions)
  rwa [withoutPositions_nil] at whole

theorem exists_eq_ofFn {xs : List σ} {n : Nat} (long : xs.length = n) :
    ∃ f : Fin n → σ, xs = List.ofFn f := by
  subst long
  exact ⟨xs.get, (List.ofFn_get xs).symm⟩

end Positions

/-! ### Directions -/

section Directions

variable {E : Type} [NormedAddCommGroup E] [InnerProductSpace ℝ E]

/-- Vectors of length one that are orthogonal to each other. -/
structure Directions (basis : List E) : Prop where
  unit : ∀ q ∈ basis, ‖q‖ = 1
  apart : basis.Pairwise fun p q => ⟪p, q⟫_ℝ = 0

theorem Directions.nil : Directions ([] : List E) := ⟨List.forall_mem_nil _, List.Pairwise.nil⟩

variable {basis : List E} {v w : E}

/-- The vectors that some directions reach. -/
def reach (basis : List E) : Submodule ℝ E := Submodule.span ℝ {q | q ∈ basis}

theorem mem_reach (member : v ∈ basis) : v ∈ reach basis := Submodule.subset_span member

theorem reach_mono {more : List E} (subset : basis ⊆ more) : reach basis ≤ reach more :=
  Submodule.span_mono subset

theorem finrank_reach_le (basis : List E) : finrank ℝ (reach basis) ≤ basis.length := by
  classical
  have few := finrank_span_finset_le_card (R := ℝ) basis.toFinset
  refine le_trans (le_of_eq ?_) (few.trans basis.toFinset_card_le)
  rw [reach, List.coe_toFinset]
  rfl

/-- What is orthogonal to directions is orthogonal to all that they reach. -/
theorem inner_eq_zero_of_mem_reach (orthogonal : ∀ q ∈ basis, ⟪q, w⟫_ℝ = 0)
    (member : v ∈ reach basis) : ⟪v, w⟫_ℝ = 0 := by
  induction member using Submodule.span_induction with
  | mem q listed => exact orthogonal q listed
  | zero => exact inner_zero_left w
  | add u v _ _ left right => rw [inner_add_left, left, right, add_zero]
  | smul k v _ ih => rw [real_inner_smul_left, ih, mul_zero]

/-- A vector without its parts along some vectors, taken off one at a time. -/
noncomputable def offParts (basis : List E) (v : E) : E :=
  basis.foldl (fun rest q => rest - ⟪rest, q⟫_ℝ • q) v

theorem sub_offParts_mem (v : E) : v - offParts basis v ∈ reach basis := by
  induction basis generalizing v with
  | nil => simp [offParts]
  | cons q basis ih =>
    have here : ⟪v, q⟫_ℝ • q ∈ reach (q :: basis) :=
      Submodule.smul_mem _ _ (mem_reach List.mem_cons_self)
    have later := reach_mono (List.subset_cons_self q basis) (ih (v - ⟪v, q⟫_ℝ • q))
    have sum := Submodule.add_mem _ here later
    rwa [add_sub, add_sub_cancel] at sum

/-- Parts along what is orthogonal to a vector do not count for it. -/
theorem inner_offParts_of_orthogonal (orthogonal : ∀ q ∈ basis, ⟪q, w⟫_ℝ = 0) :
    ⟪offParts basis v, w⟫_ℝ = ⟪v, w⟫_ℝ := by
  have part := inner_eq_zero_of_mem_reach orthogonal (sub_offParts_mem v)
  rw [inner_sub_left, sub_eq_zero] at part
  exact part.symm

/-- **What is left of a vector is orthogonal to the directions.** -/
theorem inner_offParts (directions : Directions basis) :
    ∀ q ∈ basis, ⟪q, offParts basis v⟫_ℝ = 0 := by
  induction basis generalizing v with
  | nil => exact fun _ listed => absurd listed List.not_mem_nil
  | cons q basis ih =>
    obtain ⟨unit, apart⟩ := directions
    obtain ⟨across, apart⟩ := List.pairwise_cons.mp apart
    have rest : Directions basis := ⟨fun p listed => unit p (List.mem_cons_of_mem q listed), apart⟩
    intro p listed
    rcases List.mem_cons.mp listed with rfl | later
    · -- what is taken off later is orthogonal to this direction
      have others : ∀ r ∈ basis, ⟪r, p⟫_ℝ = 0 := fun r listed' => by
        rw [real_inner_comm]
        exact across r listed'
      have still := inner_offParts_of_orthogonal (v := v - ⟪v, p⟫_ℝ • p) others
      rw [real_inner_comm]
      refine still.trans ?_
      rw [inner_sub_left, real_inner_smul_left, real_inner_self_eq_norm_sq,
        unit p List.mem_cons_self]
      ring
    · exact ih rest p later

theorem offParts_of_orthogonal (orthogonal : ∀ q ∈ basis, ⟪q, v⟫_ℝ = 0) : offParts basis v = v := by
  induction basis with
  | nil => rfl
  | cons q basis ih =>
    have none : ⟪v, q⟫_ℝ = 0 := (real_inner_comm q v).trans (orthogonal q List.mem_cons_self)
    rw [offParts, List.foldl_cons, none, zero_smul, sub_zero]
    exact ih fun p later => orthogonal p (List.mem_cons_of_mem q later)

/-- A second pass leaves what the first one left. -/
theorem offParts_offParts (directions : Directions basis) :
    offParts basis (offParts basis v) = offParts basis v :=
  offParts_of_orthogonal (inner_offParts directions)

/-- What is left of a vector gives a new direction, unless nothing is left. -/
theorem direction_offParts (directions : Directions basis) (positive : 0 < ‖offParts basis v‖) :
    ‖‖offParts basis v‖⁻¹ • offParts basis v‖ = 1 ∧
      ∀ p ∈ basis, ⟪p, ‖offParts basis v‖⁻¹ • offParts basis v⟫_ℝ = 0 := by
  refine ⟨norm_smul_inv_norm (norm_pos_iff.mp positive), fun p listed => ?_⟩
  rw [inner_smul_right, inner_offParts directions p listed, mul_zero]

theorem Directions.append {q : E} (directions : Directions basis) (unit : ‖q‖ = 1)
    (orthogonal : ∀ p ∈ basis, ⟪p, q⟫_ℝ = 0) : Directions (basis ++ [q]) := by
  refine ⟨fun p listed => ?_, ?_⟩
  · rcases List.mem_append.mp listed with old | new
    · exact directions.unit p old
    · rwa [List.mem_singleton.mp new]
  · refine List.pairwise_append.mpr ⟨directions.apart, List.pairwise_singleton _ _, ?_⟩
    intro p old r new
    rw [List.mem_singleton.mp new]
    exact orthogonal p old

/-! ### Reductions -/

/-- What a reduction of rows finds beyond the directions of `basis`: the positions of the rows that
it blames, the first row being at the position given, the rows that it keeps, and their directions.
-/
inductive Reduces (tolerance : ℝ) : List E → Nat → List E → List Nat → List E → List E → Prop
  | nil {basis : List E} {position : Nat} : Reduces tolerance basis position [] [] [] []
  /-- what is left of a row is too short -/
  | blame {basis rows kept added : List E} {position : Nat} {blamed : List Nat} {part rest : E} :
      part ∈ reach basis → (∀ q ∈ basis, ⟪q, rest⟫_ℝ = 0) → ‖rest‖ ≤ tolerance →
      Reduces tolerance basis (position + 1) rows blamed kept added →
      Reduces tolerance basis position ((part + rest) :: rows) (position :: blamed) kept added
  /-- a row goes on in a new direction -/
  | keep {basis rows kept added : List E} {position : Nat} {blamed : List Nat} {part q : E}
      {length : ℝ} : part ∈ reach basis → (∀ p ∈ basis, ⟪p, q⟫_ℝ = 0) → ‖q‖ = 1 →
      tolerance < length →
      Reduces tolerance (basis ++ [q]) (position + 1) rows blamed kept added →
      Reduces tolerance basis position ((part + length • q) :: rows) blamed
        ((part + length • q) :: kept) (q :: added)

/-- Every row reaches further than a tolerance in its own direction, and into no later one. -/
inductive Stepped (tolerance : ℝ) : List E → List E → Prop
  | nil : Stepped tolerance [] []
  | cons {row q : E} {rows directions : List E} : tolerance < ⟪row, q⟫_ℝ →
      (∀ p ∈ directions, ⟪row, p⟫_ℝ = 0) → Stepped tolerance rows directions →
      Stepped tolerance (row :: rows) (q :: directions)

variable {tolerance : ℝ} {position : Nat} {rows kept added : List E} {blamed : List Nat}

/-- A row is blamed when little is left of it. -/
theorem Reduces.blame_offParts {v : E} (directions : Directions basis)
    (short : ‖offParts basis v‖ ≤ tolerance)
    (reduces : Reduces tolerance basis (position + 1) rows blamed kept added) :
    Reduces tolerance basis position (v :: rows) (position :: blamed) kept added := by
  have blames := Reduces.blame (sub_offParts_mem v) (inner_offParts directions) short reduces
  rwa [sub_add_cancel] at blames

/-- A row is kept when much is left of it, which gives a direction when brought to length one. -/
theorem Reduces.keep_offParts {v : E} (directions : Directions basis)
    (positive : 0 < ‖offParts basis v‖) (long : tolerance < ‖offParts basis v‖)
    (reduces : Reduces tolerance (basis ++ [‖offParts basis v‖⁻¹ • offParts basis v]) (position + 1)
      rows blamed kept added) :
    Reduces tolerance basis position (v :: rows) blamed (v :: kept)
      ((‖offParts basis v‖⁻¹ • offParts basis v) :: added) := by
  obtain ⟨unit, orthogonal⟩ := direction_offParts directions positive
  have keeps := Reduces.keep (sub_offParts_mem v) orthogonal unit long reduces
  rwa [smul_inv_smul₀ positive.ne', sub_add_cancel] at keeps

theorem Reduces.directions (reduces : Reduces tolerance basis position rows blamed kept added)
    (directions : Directions basis) : Directions (basis ++ added) := by
  induction reduces with
  | nil => rwa [List.append_nil]
  | blame _ _ _ _ ih => exact ih directions
  | keep _ orthogonal unit _ _ ih =>
    have more := ih (directions.append unit orthogonal)
    rwa [List.append_assoc] at more

/-- **The rows that are kept go up in steps.** -/
theorem Reduces.stepped (reduces : Reduces tolerance basis position rows blamed kept added)
    (directions : Directions basis) : Stepped tolerance kept added := by
  induction reduces with
  | nil => exact .nil
  | blame _ _ _ _ ih => exact ih directions
  | @keep basis rows kept added position blamed part q length within orthogonal unit long rest ih =>
    have more := directions.append unit orthogonal
    -- a direction found later is orthogonal to all that make up this row
    have later : ∀ p ∈ added, ∀ r ∈ basis ++ [q], ⟪r, p⟫_ℝ = 0 := fun p new r old =>
      (List.pairwise_append.mp (rest.directions more).apart).2.2 r old p new
    refine .cons ?_ (fun p new => ?_) (ih more)
    · have across := inner_eq_zero_of_mem_reach orthogonal within
      rwa [inner_add_left, across, real_inner_smul_left, real_inner_self_eq_norm_sq, unit, zero_add,
        one_pow, mul_one]
    · refine inner_eq_zero_of_mem_reach (later p new) (Submodule.add_mem _ ?_ ?_)
      · exact reach_mono (List.subset_append_left _ _) within
      · exact Submodule.smul_mem _ _ (mem_reach (List.mem_append_right _ List.mem_cons_self))

/-- **Across all directions the rows are short**: only those that are blamed reach there, and none
further than the tolerance. -/
theorem Reduces.sum_sq_le (reduces : Reduces tolerance basis position rows blamed kept added)
    {x : E} (across : ∀ q ∈ basis ++ added, ⟪q, x⟫_ℝ = 0) :
    (rows.map fun row => ⟪row, x⟫_ℝ ^ 2).sum ≤ blamed.length * (tolerance * ‖x‖) ^ 2 := by
  induction reduces with
  | nil => simp
  | @blame basis rows kept added position blamed part rest within _ short _ ih =>
    have vanish := inner_eq_zero_of_mem_reach
      (fun q old => across q (List.mem_append_left _ old)) within
    have reach : ⟪rest, x⟫_ℝ ^ 2 ≤ (tolerance * ‖x‖) ^ 2 := by
      rw [← sq_abs]
      have far := (abs_real_inner_le_norm rest x).trans
        (mul_le_mul_of_nonneg_right short (norm_nonneg x))
      gcongr
    rw [List.map_cons, List.sum_cons, inner_add_left, vanish, zero_add, List.length_cons]
    push_cast
    linarith [ih across]
  | @keep basis rows kept added position blamed part q length within _ _ _ _ ih =>
    have vanish := inner_eq_zero_of_mem_reach
      (fun p old => across p (List.mem_append_left _ old)) within
    have own := across q (List.mem_append_right _ List.mem_cons_self)
    have rest := ih fun p listed => across p (by simpa using listed)
    rw [List.map_cons, List.sum_cons, inner_add_left, vanish, real_inner_smul_left, own]
    simpa using rest

theorem Reduces.length_added (reduces : Reduces tolerance basis position rows blamed kept added) :
    added.length = kept.length ∧ kept.length + blamed.length = rows.length := by
  induction reduces with
  | nil => exact ⟨rfl, rfl⟩
  | blame _ _ _ _ ih =>
    simp only [List.length_cons]
    omega
  | keep _ _ _ _ _ ih =>
    simp only [List.length_cons]
    omega

theorem Reduces.le_of_mem (reduces : Reduces tolerance basis position rows blamed kept added) :
    ∀ i ∈ blamed, position ≤ i := by
  induction reduces with
  | nil => exact fun _ listed => absurd listed List.not_mem_nil
  | blame _ _ _ _ ih =>
    intro i listed
    rcases List.mem_cons.mp listed with rfl | later
    · exact le_rfl
    · exact Nat.le_of_succ_le (ih i later)
  | keep _ _ _ _ _ ih => exact fun i listed => Nat.le_of_succ_le (ih i listed)

/-- The rows that are kept are those at the positions not blamed. -/
theorem Reduces.kept_eq (reduces : Reduces tolerance basis position rows blamed kept added) :
    kept = withoutPositions blamed position rows := by
  induction reduces with
  | nil => rfl
  | blame _ _ _ rest ih =>
    rw [withoutPositions, if_pos List.mem_cons_self, ih]
    refine withoutPositions_congr fun i after => ?_
    have other : i ≠ _ := Nat.ne_of_gt after
    simp [other]
  | keep _ _ _ _ rest ih =>
    have other : _ ∉ _ := fun listed => absurd (rest.le_of_mem _ listed) (Nat.not_succ_le_self _)
    rw [withoutPositions, if_neg other, ih]

end Directions

/-! ### Singular values of reduced rows -/

section Reduced

variable {E F : Type} [NormedAddCommGroup E] [InnerProductSpace ℝ E] [NormedAddCommGroup F]
  [InnerProductSpace ℝ F] {tolerance : ℝ} {rows basis kept added : List E}

theorem Stepped.length_eq (stepped : Stepped tolerance rows basis) :
    rows.length = basis.length := by
  induction stepped with
  | nil => rfl
  | cons _ _ _ ih => rw [List.length_cons, List.length_cons, ih]

/-- Place by place, a row reaches along its own direction, and along none of the later ones. -/
theorem Stepped.getElem (stepped : Stepped tolerance rows basis) {i : Nat}
    (inside : i < rows.length) (inside' : i < basis.length) : tolerance < ⟪rows[i], basis[i]⟫_ℝ ∧
      ∀ j, i < j → ∀ within : j < basis.length, ⟪rows[i], basis[j]⟫_ℝ = 0 := by
  induction stepped generalizing i with
  | nil => exact absurd inside (Nat.not_lt_zero i)
  | cons far later _ ih =>
    cases i with
    | zero =>
      refine ⟨far, fun j after within => ?_⟩
      cases j with
      | zero => exact absurd after (Nat.lt_irrefl 0)
      | succ j => exact later _ (List.getElem_mem (Nat.lt_of_succ_lt_succ within))
    | succ i =>
      obtain ⟨own, others⟩ := ih (Nat.lt_of_succ_lt_succ inside) (Nat.lt_of_succ_lt_succ inside')
      refine ⟨own, fun j after within => ?_⟩
      cases j with
      | zero => exact absurd after (Nat.not_lt_zero _)
      | succ j => exact others j (Nat.lt_of_succ_lt_succ after) (Nat.lt_of_succ_lt_succ within)

theorem Directions.orthonormal {n : Nat} {q : Fin n → E} (directions : Directions (List.ofFn q)) :
    Orthonormal ℝ q := by
  refine ⟨fun i => directions.unit _ (List.mem_ofFn.mpr ⟨i, rfl⟩), ?_⟩
  have apart := List.pairwise_ofFn.mp directions.apart
  intro i j other
  rcases lt_or_gt_of_ne other with before | after
  · exact apart before
  · rw [real_inner_comm]
    exact apart after

variable [FiniteDimensional ℝ E] [FiniteDimensional ℝ F]

/-- **Rows that go up in steps leave as many singular values large** in every map that they are
rows of. -/
theorem Stepped.lt_singularValues {k : Nat} {bound cap : ℝ} {S : E →ₗ[ℝ] F}
    (stepped : Stepped tolerance rows basis) (directions : Directions basis)
    (size : rows.length = k + 1) (positive : 0 < tolerance)
    (reached : ∀ x, (rows.map fun row => ⟪row, x⟫_ℝ ^ 2).sum ≤ ‖S x‖ ^ 2)
    (capped : ∀ x, ‖S x‖ ≤ cap * ‖x‖) (nonneg : 0 ≤ cap)
    (low : bound * cap ^ k ≤ tolerance ^ (k + 1)) : bound < S.singularValues k := by
  obtain ⟨q, rfl⟩ := exists_eq_ofFn (stepped.length_eq.symm.trans size)
  obtain ⟨row, rfl⟩ := exists_eq_ofFn size
  have place (i : Fin (k + 1)) := stepped.getElem (i := i) (by simp [i.is_le]) (by simp [i.is_le])
  simp only [List.getElem_ofFn, List.length_ofFn] at place
  simp only [List.map_ofFn, List.sum_ofFn, Function.comp_def] at reached
  exact Spectrum.lt_singularValues_of_steps directions.orthonormal (fun i => (place i).1)
    (fun i j before => (place i).2 j before j.isLt) positive reached capped nonneg low

/-- **Beyond the rows kept, singular values are small** in every map that has no other rows. -/
theorem Reduces.singularValues_le {blamed : List Nat} {position : Nat} {S : E →ₗ[ℝ] F}
    (reduces : Reduces tolerance [] position rows blamed kept added) (nonneg : 0 ≤ tolerance)
    (within : ∀ x, ‖S x‖ ^ 2 ≤ (rows.map fun row => ⟪row, x⟫_ℝ ^ 2).sum) :
    S.singularValues kept.length ≤ √blamed.length * tolerance := by
  refine Spectrum.singularValues_le S (W := (reach added)ᗮ) (by positivity) (fun x across => ?_) ?_
  · have far := (within x).trans (reduces.sum_sq_le fun q listed =>
      Submodule.inner_right_of_mem_orthogonal (mem_reach listed) across)
    refine (sq_le_sq₀ (norm_nonneg _) (by positivity)).mp (far.trans_eq ?_)
    rw [mul_assoc, mul_pow _ (tolerance * ‖x‖), Real.sq_sqrt (Nat.cast_nonneg _)]
  · -- the directions are as many as the rows kept
    have whole := (reach added).finrank_add_finrank_orthogonal
    have few := finrank_reach_le added
    rw [reduces.length_added.1] at few
    omega

end Reduced

/-! ### Rows as vectors -/

section Rows

variable {width : Nat} {row other : List ℝ}

/-- The vector of the entries of a row. -/
noncomputable def rowVector (width : Nat) (row : List ℝ) : EuclideanSpace ℝ (Fin width) :=
  WithLp.toLp _ fun j => row.getD j 0

theorem dot_eq_inner (shape : row.length = width) (shape' : other.length = width) :
    Vector.dot row other = ⟪rowVector width row, rowVector width other⟫_ℝ := by
  obtain ⟨e, rfl⟩ := exists_ofFn_eq shape'
  rw [dot_ofFn row shape, EuclideanSpace.inner_eq_star_dotProduct, dotProduct]
  refine Finset.sum_congr rfl fun j _ => ?_
  simp [rowVector, mul_comm]

theorem norm_eq_norm (shape : row.length = width) : Vector.norm row = ‖rowVector width row‖ := by
  rw [Vector.norm, dot_eq_inner shape shape, real_inner_self_eq_norm_sq]
  exact Real.sqrt_sq (norm_nonneg _)

theorem rowVector_sub (shape : row.length = width) (shape' : other.length = width) (k : ℝ) :
    rowVector width (List.zipWith (fun r e => r - k * e) row other) =
      rowVector width row - k • rowVector width other := by
  ext j
  have inside : (j : Nat) < row.length := by omega
  have inside' : (j : Nat) < other.length := by omega
  simp [rowVector, List.getD_eq_getElem?_getD, inside, inside']

theorem rowVector_div (k : ℝ) :
    rowVector width (row.map (· / k)) = k⁻¹ • rowVector width row := by
  ext j
  simp only [rowVector, PiLp.smul_apply, smul_eq_mul, List.getD_eq_getElem?_getD, List.getElem?_map]
  cases row[(j : Nat)]? with
  | none => simp
  | some r => exact div_eq_inv_mul r k

theorem length_withoutParts {basis : List (List ℝ)} (wide : ∀ q ∈ basis, q.length = width)
    (shape : row.length = width) : (Rank.withoutParts basis row).length = width := by
  induction basis generalizing row with
  | nil => exact shape
  | cons q basis ih =>
    refine ih (fun p listed => wide p (List.mem_cons_of_mem q listed)) ?_
    rw [List.length_zipWith, shape, wide q List.mem_cons_self, min_self]

theorem rowVector_withoutParts {basis : List (List ℝ)} (wide : ∀ q ∈ basis, q.length = width)
    (shape : row.length = width) : rowVector width (Rank.withoutParts basis row) =
      offParts (basis.map (rowVector width)) (rowVector width row) := by
  induction basis generalizing row with
  | nil => rfl
  | cons q basis ih =>
    have here := wide q List.mem_cons_self
    have rest : (List.zipWith (fun r e => r - Vector.dot row q * e) row q).length = width := by
      rw [List.length_zipWith, shape, here, min_self]
    have first : rowVector width (List.zipWith (fun r e => r - Vector.dot row q * e) row q) =
        rowVector width row - ⟪rowVector width row, rowVector width q⟫_ℝ • rowVector width q := by
      rw [rowVector_sub shape here, dot_eq_inner shape here]
    rw [List.map_cons, offParts, List.foldl_cons, ← first]
    exact ih (fun p listed => wide p (List.mem_cons_of_mem q listed)) rest

/-- Over the real numbers, the second pass is for nothing. -/
theorem rowVector_remainder {basis : List (List ℝ)} (wide : ∀ q ∈ basis, q.length = width)
    (directions : Directions (basis.map (rowVector width))) (shape : row.length = width) :
    rowVector width (Rank.remainder basis row) =
      offParts (basis.map (rowVector width)) (rowVector width row) := by
  rw [Rank.remainder, rowVector_withoutParts wide (length_withoutParts wide shape),
    rowVector_withoutParts wide shape, offParts_offParts directions]

/-- **Row by row, the computation reduces.** -/
theorem exists_reduces {tolerance : ℝ} (nonneg : 0 ≤ tolerance) {rows : Matrix ℝ}
    (shape : ∀ row ∈ rows, row.length = width) {basis : List (List ℝ)}
    (wide : ∀ q ∈ basis, q.length = width)
    (directions : Directions (basis.map (rowVector width))) (position : Nat) :
    ∃ kept added, Reduces tolerance (basis.map (rowVector width)) position
      (rows.map (rowVector width)) (Rank.dependentFrom tolerance basis position rows) kept
      added := by
  induction rows generalizing basis position with
  | nil => exact ⟨[], [], .nil⟩
  | cons row rows ih =>
    obtain ⟨here, later⟩ := List.forall_mem_cons.mp shape
    have long : (Rank.remainder basis row).length = width :=
      length_withoutParts wide (length_withoutParts wide here)
    have left := rowVector_remainder wide directions here
    rw [List.map_cons, Rank.dependentFrom, norm_eq_norm long, left]
    split
    · rename_i short
      obtain ⟨kept, added, reduces⟩ := ih later wide directions (position + 1)
      exact ⟨kept, added, reduces.blame_offParts directions (Ordered.le_real.mp short)⟩
    · rename_i above
      have above := not_le.mp (mt Ordered.le_real.mpr above)
      have positive := nonneg.trans_lt above
      obtain ⟨unit, orthogonal⟩ := direction_offParts directions positive
      have more := directions.append unit orthogonal
      -- the direction is computed as the remainder, brought to length one
      rw [← left, ← rowVector_div, ← List.map_singleton, ← List.map_append] at more
      have wider : ∀ q ∈ basis ++ [(Rank.remainder basis row).map
          (· / ‖rowVector width (Rank.remainder basis row)‖)], q.length = width :=
        List.forall_mem_append.mpr ⟨wide, by simpa using long⟩
      obtain ⟨kept, added, reduces⟩ := ih later wider more (position + 1)
      rw [List.map_append, List.map_singleton, rowVector_div, left] at reduces
      exact ⟨_, _, reduces.keep_offParts directions positive above⟩

theorem exists_reduces_dependentRows {tolerance : ℝ} (nonneg : 0 ≤ tolerance) {rows : Matrix ℝ}
    (shape : ∀ row ∈ rows, row.length = width) :
    ∃ kept added, Reduces tolerance [] 0 (rows.map (rowVector width))
      (Rank.dependentRows rows tolerance) kept added :=
  exists_reduces nonneg shape (List.forall_mem_nil _) Directions.nil 0

end Rows

end PlaneSketch
