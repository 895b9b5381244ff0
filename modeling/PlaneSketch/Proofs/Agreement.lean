import Mathlib
import PlaneSketch.Proofs.Rank
import PlaneSketch.Proofs.Reduction

/-!
Two ways to find a rank, side by side.

The numeric rank counts singular values above a bound; the rows blamed for a low rank are those that
a reduction finds too close to the rows before them, by the same bound. The two agree where no
singular value is near the bound, and need not where one is.

* `brackets_of_reduced`: whatever the matrix is, as many singular values as there are rows kept are
  above a power of the tolerance, and no more than these are above the bound, widened by the root of
  the number of rows blamed.
* `Rank.rank_add_blamed`: when no singular value lies between, the rank and the rows blamed add up
  to all rows, in whatever order these stand.
* `Leaning.disagrees`: two rows of which the second leans towards the first; the rank misses one
  row, and whether a row is blamed hangs on the order.
-/

namespace PlaneSketch

open Module InnerProductSpace

/-! ### Singular values of a matrix -/

section Values

variable {rows others : Matrix ℝ} {width i : Nat} {bound : ℝ}

/-- With more rows, more is reached along a vector. -/
theorem sum_inner_sq_le {E : Type} [NormedAddCommGroup E] [InnerProductSpace ℝ E]
    {rows others : List E} (fewer : others.Sublist rows) (x : E) :
    (others.map fun row => ⟪row, x⟫_ℝ ^ 2).sum ≤ (rows.map fun row => ⟪row, x⟫_ℝ ^ 2).sum := by
  refine (fewer.map _).sum_le_sum fun part listed => ?_
  obtain ⟨row, -, rfl⟩ := List.mem_map.mp listed
  exact sq_nonneg _

theorem Matrix.linearMap_apply (x : EuclideanSpace ℝ (Fin width)) (i : Fin rows.length) :
    rows.linearMap width x i = ⟪rowVector width (rows.get i), x⟫_ℝ := by
  rw [EuclideanSpace.inner_eq_star_dotProduct, dotProduct]
  simp [linearMap, Matrix.mulVec, dotProduct, rowVector, mul_comm]

/-- A matrix takes a vector as far as its rows reach along it. -/
theorem Matrix.norm_linearMap_sq (x : EuclideanSpace ℝ (Fin width)) :
    ‖rows.linearMap width x‖ ^ 2 =
      ((rows.map (rowVector width)).map fun row => ⟪row, x⟫_ℝ ^ 2).sum := by
  rw [EuclideanSpace.real_norm_sq_eq, ← List.sum_ofFn]
  have entries : (List.ofFn fun i => rows.linearMap width x i ^ 2) =
      (List.ofFn rows.get).map fun row => ⟪rowVector width row, x⟫_ℝ ^ 2 := by
    rw [List.map_ofFn]
    simp only [linearMap_apply, Function.comp_def]
  rw [entries, List.ofFn_get, List.map_map]
  rfl

/-- The same for rows of two entries. -/
theorem Matrix.norm_linearMap_sq_two (rows : Matrix ℝ) (x : EuclideanSpace ℝ (Fin 2)) :
    ‖rows.linearMap 2 x‖ ^ 2 =
      (rows.map fun row => (row.getD 0 0 * x 0 + row.getD 1 0 * x 1) ^ 2).sum := by
  rw [norm_linearMap_sq, List.map_map]
  simp [Function.comp_def, rowVector, EuclideanSpace.inner_eq_star_dotProduct, dotProduct,
    Fin.sum_univ_two, mul_comm]

/-- With more rows a vector is taken at least as far. -/
theorem Matrix.norm_linearMap_le (fewer : others.Sublist rows) (x : EuclideanSpace ℝ (Fin width)) :
    ‖others.linearMap width x‖ ≤ ‖rows.linearMap width x‖ := by
  refine (sq_le_sq₀ (norm_nonneg _) (norm_nonneg _)).mp ?_
  rw [norm_linearMap_sq, norm_linearMap_sq]
  exact sum_inner_sq_le (fewer.map _) x

/-- The order of the rows does not matter for the singular values. -/
theorem Matrix.singularValue_perm (perm : rows.Perm others) (i : Nat) :
    (others.linearMap width).singularValues i = (rows.linearMap width).singularValues i := by
  refine Spectrum.singularValues_congr (fun x => ?_) i
  refine (sq_eq_sq₀ (norm_nonneg _) (norm_nonneg _)).mp ?_
  rw [norm_linearMap_sq, norm_linearMap_sq]
  exact ((perm.map _).map _).sum_eq.symm

theorem Matrix.singularValues_perm (perm : rows.Perm others) :
    others.singularValues width = rows.singularValues width := by
  have long : min rows.length width = min others.length width := by rw [perm.length_eq]
  rw [singularValues, singularValues, long]
  exact List.map_congr_left fun i _ => singularValue_perm perm i

theorem Matrix.singularValues_eq_zero (outside : min rows.length width ≤ i) :
    (rows.linearMap width).singularValues i = 0 := by
  refine (rows.linearMap width).singularValues_eq_zero_iff_le_finrank_range.mpr ?_
  refine le_trans (le_min ?_ ?_) outside
  · simpa using (rows.linearMap width).range.finrank_le
  · simpa using (rows.linearMap width).finrank_range_le

/-- How many singular values are above a bound. -/
noncomputable def Matrix.above (rows : Matrix ℝ) (width : Nat) (bound : ℝ) : Nat :=
  (rows.singularValues width).countP fun s => Ordered.lt bound s

/-- What the tolerance is relative to: the largest singular value, and at least one. -/
noncomputable def Matrix.extent (rows : Matrix ℝ) (width : Nat) : ℝ :=
  max 1 ((rows.singularValues width).headD 0)

theorem Matrix.extent_eq (rows : Matrix ℝ) (width : Nat) :
    rows.extent width = max 1 ((rows.linearMap width).singularValues 0) := by
  rw [extent, singularValues]
  cases size : min rows.length width with
  | zero =>
    rw [singularValues_eq_zero size.le]
    rfl
  | succ n =>
    rw [List.range_succ_eq_map]
    rfl

theorem Matrix.extent_pos (rows : Matrix ℝ) (width : Nat) : 0 < rows.extent width :=
  one_pos.trans_le (le_max_left _ _)

theorem Matrix.norm_linearMap_le_extent (x : EuclideanSpace ℝ (Fin width)) :
    ‖rows.linearMap width x‖ ≤ rows.extent width * ‖x‖ := by
  rw [extent_eq]
  exact (Spectrum.norm_map_le_first _ x).trans
    (mul_le_mul_of_nonneg_right (le_max_right _ _) (norm_nonneg x))

theorem Matrix.extent_le (fewer : others.Sublist rows) :
    others.extent width ≤ rows.extent width := by
  rw [extent_eq, extent_eq]
  exact max_le_max le_rfl (Spectrum.singularValues_mono (norm_linearMap_le fewer) 0)

/-- Of numbers that go down, those that meet a condition come first. -/
theorem lt_countP_range_iff {p : Nat → Bool} (down : ∀ i j, i ≤ j → p j = true → p i = true)
    {n : Nat} : i < (List.range n).countP p ↔ i < n ∧ p i = true := by
  induction n generalizing i with
  | zero => simp
  | succ n ih =>
    rw [List.range_succ, List.countP_append, List.countP_singleton]
    have few := List.countP_le_length (p := p) (l := List.range n)
    rw [List.length_range] at few
    by_cases last : p n = true
    · -- then all before it do too
      have all : (List.range n).countP p = n := by
        refine le_antisymm few (not_lt.mp fun less => ?_)
        exact Nat.lt_irrefl _ (ih.mpr ⟨less, down _ _ less.le last⟩)
      rw [all, if_pos last]
      exact ⟨fun inside => ⟨inside, down _ _ (Nat.le_of_lt_succ inside) last⟩, fun both => both.1⟩
    · rw [if_neg last, Nat.add_zero, ih]
      refine and_congr_left fun here => ⟨Nat.lt_succ_of_lt, fun inside => ?_⟩
      exact lt_of_le_of_ne (Nat.le_of_lt_succ inside) fun same => last (same ▸ here)

/-- Singular values above a bound are the first ones. -/
theorem Matrix.lt_above_iff (nonneg : 0 ≤ bound) :
    i < rows.above width bound ↔ bound < (rows.linearMap width).singularValues i := by
  rw [above, singularValues, List.countP_map, lt_countP_range_iff]
  · simp only [Function.comp, Ordered.lt_real]
    refine ⟨fun both => both.2, fun large => ⟨not_le.mp fun outside => ?_, large⟩⟩
    rw [singularValues_eq_zero outside] at large
    exact nonneg.not_gt large
  · intro i j order large
    rw [Function.comp, Ordered.lt_real] at large ⊢
    exact large.trans_le ((rows.linearMap width).singularValues_antitone order)

/-- Counting singular values one by one. -/
theorem Matrix.above_eq_of_forall {k : Nat} (nonneg : 0 ≤ bound)
    (large : ∀ i, i < k → bound < (rows.linearMap width).singularValues i)
    (small : (rows.linearMap width).singularValues k ≤ bound) : rows.above width bound = k := by
  refine le_antisymm (not_lt.mp (mt (lt_above_iff nonneg).mp small.not_gt)) ?_
  cases k with
  | zero => exact Nat.zero_le _
  | succ k => exact (lt_above_iff nonneg).mpr (large k (Nat.lt_succ_self k))

/-- A matrix that takes every vector beyond a bound has as many singular values above it as it has
columns. -/
theorem Matrix.above_eq_width (nonneg : 0 ≤ bound)
    (far : ∀ x, x ≠ 0 → bound * ‖x‖ < ‖rows.linearMap width x‖) :
    rows.above width bound = width := by
  refine above_eq_of_forall nonneg (fun i inside => ?_) ?_
  · refine Spectrum.lt_singularValues _ (V := ⊤) (fun x _ nonzero => far x nonzero) ?_
    simpa using inside
  · rwa [(rows.linearMap width).singularValues_of_finrank_le (by simp)]

theorem Matrix.above_le_length : rows.above width bound ≤ rows.length := by
  refine List.countP_le_length.trans ?_
  rw [singularValues, List.length_map, List.length_range]
  exact min_le_left _ _

theorem Matrix.above_perm (perm : rows.Perm others) :
    others.above width bound = rows.above width bound := by
  rw [above, singularValues_perm perm, above]

theorem Matrix.extent_perm (perm : rows.Perm others) :
    others.extent width = rows.extent width := by
  rw [extent, singularValues_perm perm, extent]

end Values

/-! ### What is computed -/

section Computed

variable {methods : Methods ℝ} {rows : Matrix ℝ} {width : Nat}

theorem Matrix.min_eq_zero_of_size (shape : ∀ row ∈ rows, row.length = width)
    (empty : rows.size = 0) : min rows.length width = 0 := by
  cases rows with
  | nil => exact Nat.zero_min width
  | cons row rows =>
    have first : row.length = 0 := by
      rw [size, List.map_cons, total_cons] at empty
      omega
    rw [← shape row List.mem_cons_self, first]
    exact Nat.min_zero _

theorem Scalar.raise_real (a b : ℝ) : Scalar.raise a b = max a b := by
  unfold Scalar.raise
  split
  · rename_i larger
    exact (max_eq_right (Ordered.lt_real.mp larger).le).symm
  · rename_i larger
    exact (max_eq_left (not_lt.mp (mt Ordered.lt_real.mpr larger))).symm

/-- **With exact singular values the rank is the number of those above the bound.** -/
theorem Rank.numeric?_eq (exact : methods.ExactValues) (shape : ∀ row ∈ rows, row.length = width)
    (tolerance : ℝ) : Rank.numeric? methods rows tolerance =
      some (rows.above width (tolerance * rows.extent width)) := by
  unfold Rank.numeric?
  split
  · rename_i empty
    rw [Matrix.above, Matrix.singularValues, Matrix.min_eq_zero_of_size shape empty]
    rfl
  · rename_i entries
    rw [exact width rows shape entries, Option.map_some, Scalar.raise_real]
    rfl

theorem Rank.threshold?_eq (exact : methods.ExactValues)
    (shape : ∀ row ∈ rows, row.length = width) (tolerance : ℝ) :
    Rank.threshold? methods rows tolerance = some (tolerance * rows.extent width) := by
  unfold Rank.threshold?
  split
  · rename_i empty
    have none := Matrix.min_eq_zero_of_size shape empty
    rw [Matrix.extent_eq, Matrix.singularValues_eq_zero none.le, max_eq_left zero_le_one, mul_one]
  · rename_i entries
    rw [exact width rows shape entries, Option.map_some, Scalar.raise_real]
    rfl

end Computed

/-! ### Between two bounds -/

section Between

variable {rows others : Matrix ℝ} {width k : Nat} {low high bound tolerance : ℝ}

/-- At least so many singular values are above one bound, and at most so many above another. -/
structure Matrix.Brackets (rows : Matrix ℝ) (width : Nat) (low high : ℝ) (count : Nat) : Prop where
  le_above : count ≤ rows.above width low
  above_le : rows.above width high ≤ count

/-- Every singular value is at most one bound or above another. -/
def Matrix.Gap (rows : Matrix ℝ) (width : Nat) (low high : ℝ) : Prop :=
  ∀ s ∈ rows.singularValues width, s ≤ low ∨ high < s

/-- Where every vector is taken beyond a bound, every singular value is above it. -/
theorem Matrix.gap_of_far (far : ∀ x, x ≠ 0 → high * ‖x‖ < ‖rows.linearMap width x‖) :
    rows.Gap width low high := by
  intro s listed
  obtain ⟨i, inside, rfl⟩ := List.mem_map.mp listed
  refine .inr (Spectrum.lt_singularValues _ (V := ⊤) (fun x _ nonzero => far x nonzero) ?_)
  simpa using (lt_min_iff.mp (List.mem_range.mp inside)).2

/-- A bound in a gap counts what the brackets say, when they lie in the gap too. -/
theorem Matrix.Brackets.above_eq {low' high' : ℝ} (brackets : rows.Brackets width low high k)
    (gap : rows.Gap width low' high') (from_low : k ≠ 0 → low' ≤ low ∧ bound ≤ high')
    (to_high : high ≤ high') (inside : low' ≤ bound) : rows.above width bound = k := by
  refine le_antisymm (le_trans ?_ brackets.above_le) ?_
  · refine List.countP_mono_left fun s listed large => ?_
    rw [Ordered.lt_real] at large ⊢
    rcases gap s listed with small | far
    · exact absurd (inside.trans_lt large) small.not_gt
    · exact to_high.trans_lt far
  · by_cases none : k = 0
    · rw [none]
      exact Nat.zero_le _
    obtain ⟨below, within⟩ := from_low none
    refine brackets.le_above.trans (List.countP_mono_left fun s listed large => ?_)
    rw [Ordered.lt_real] at large ⊢
    rcases gap s listed with small | far
    · exact absurd (below.trans_lt large) small.not_gt
    · exact within.trans_lt far

/-- **What a reduction leaves brackets the singular values**, of the matrix and of every part of it
that holds the rows kept. -/
theorem brackets_of_reduced {blamed : List Nat} (shape : ∀ row ∈ rows, row.length = width)
    (positive : 0 < tolerance)
    (found : Rank.dependentRows rows (tolerance * rows.extent width) = blamed)
    (fewer : others.Sublist rows) (more : (withoutPositions blamed 0 rows).Sublist others)
    (size : k + blamed.length = rows.length) :
    others.Brackets width (tolerance ^ k * rows.extent width)
      (√blamed.length * (tolerance * rows.extent width)) k := by
  have extent := rows.extent_pos width
  obtain ⟨kept, added, reduces⟩ := exists_reduces_dependentRows (mul_pos positive extent).le shape
  rw [found] at reduces
  have counted := reduces.length_added.2
  rw [List.length_map] at counted
  have kept_length : kept.length = k := by omega
  have capped (x : EuclideanSpace ℝ (Fin width)) :
      ‖others.linearMap width x‖ ≤ rows.extent width * ‖x‖ :=
    (Matrix.norm_linearMap_le fewer x).trans (Matrix.norm_linearMap_le_extent x)
  constructor
  · -- the rows kept go up in steps, and are rows of the part
    cases k with
    | zero => exact Nat.zero_le _
    | succ j =>
      refine Nat.succ_le_of_lt ((Matrix.lt_above_iff (by positivity)).mpr ?_)
      refine (reduces.stepped .nil).lt_singularValues (reduces.directions .nil)
        kept_length (mul_pos positive extent) (fun x => ?_) capped extent.le ?_
      · rw [Matrix.norm_linearMap_sq, reduces.kept_eq, withoutPositions_map]
        exact sum_inner_sq_le (more.map _) x
      · rw [mul_assoc, ← pow_succ', ← mul_pow]
  · -- across their directions, all rows are short
    refine not_lt.mp (mt (Matrix.lt_above_iff (by positivity)).mp (not_lt.mpr ?_))
    rw [← kept_length]
    refine reduces.singularValues_le (mul_pos positive extent).le fun x => ?_
    rw [← Matrix.norm_linearMap_sq]
    exact pow_le_pow_left₀ (norm_nonneg _) (Matrix.norm_linearMap_le fewer x) _

/-- No singular value is near the bound of a rank, up to powers of the tolerance below it and the
root of the number of rows above it. The rows and their extent are those of a matrix that the
present one is a part of. -/
def Matrix.Clear (others : Matrix ℝ) (width : Nat) (tolerance : ℝ) (count : Nat) (extent : ℝ) :
    Prop :=
  others.Gap width (min tolerance (tolerance ^ count) * others.extent width)
    (√count * (tolerance * extent))

theorem min_pow_le {count : Nat} (positive : 0 < tolerance) (some : k ≠ 0) (less : k ≤ count) :
    min tolerance (tolerance ^ count) ≤ tolerance ^ k := by
  rcases le_total tolerance 1 with small | large
  · exact (min_le_right _ _).trans (pow_le_pow_of_le_one positive.le small less)
  · refine (min_le_left _ _).trans ?_
    simpa using pow_le_pow_right₀ large (Nat.one_le_iff_ne_zero.mpr some)

/-- **Where no singular value is near the bound, the rank is the number of rows kept.** -/
theorem Matrix.Brackets.above_eq_of_clear {count blamed : Nat} {extent : ℝ}
    (brackets : others.Brackets width (tolerance ^ k * extent) (√blamed * (tolerance * extent)) k)
    (positive : 0 < tolerance) (smaller : others.extent width ≤ extent)
    (size : k + blamed = count) (clear : others.Clear width tolerance count extent) :
    others.above width (tolerance * others.extent width) = k := by
  have nonneg := (others.extent_pos width).le
  have nonneg' : 0 ≤ tolerance * extent := mul_nonneg positive.le (nonneg.trans smaller)
  refine brackets.above_eq clear (fun some => ⟨?_, ?_⟩) ?_ ?_
  · exact mul_le_mul (min_pow_le positive some (by omega)) smaller nonneg (by positivity)
  · have root : 1 ≤ √(count : ℝ) := by
      rw [Real.one_le_sqrt]
      exact_mod_cast (by omega : 1 ≤ count)
    calc tolerance * others.extent width ≤ tolerance * extent :=
          mul_le_mul_of_nonneg_left smaller positive.le
      _ ≤ √count * (tolerance * extent) := le_mul_of_one_le_left nonneg' root
  · refine mul_le_mul_of_nonneg_right (Real.sqrt_le_sqrt ?_) nonneg'
    exact_mod_cast (by omega : blamed ≤ count)
  · exact mul_le_mul_of_nonneg_right (min_le_left _ _) nonneg

end Between

/-! ### The two ranks -/

section Ranks

variable {methods : Methods ℝ} {rows : Matrix ℝ} {width : Nat} {tolerance : ℝ}

theorem length_dependentRows_le (shape : ∀ row ∈ rows, row.length = width)
    (nonneg : 0 ≤ tolerance) :
    (Rank.dependentRows rows tolerance).length ≤ rows.length := by
  obtain ⟨kept, added, reduces⟩ := exists_reduces_dependentRows nonneg shape
  have counted := reduces.length_added.2
  rw [List.length_map] at counted
  exact Nat.le.intro ((Nat.add_comm _ _).trans counted)

/-- What is true of the rank, of the rows blamed and of the singular values of a matrix. -/
theorem brackets_dependentRows (shape : ∀ row ∈ rows, row.length = width)
    (positive : 0 < tolerance) :
    rows.Brackets width
      (tolerance ^ (rows.length -
        (Rank.dependentRows rows (tolerance * rows.extent width)).length) * rows.extent width)
      (√(Rank.dependentRows rows (tolerance * rows.extent width)).length *
        (tolerance * rows.extent width))
      (rows.length - (Rank.dependentRows rows (tolerance * rows.extent width)).length) := by
  have extent := rows.extent_pos width
  have few := length_dependentRows_le shape (mul_pos positive extent).le
  exact brackets_of_reduced shape positive rfl (List.Sublist.refl rows)
    withoutPositions_sublist_self (Nat.sub_add_cancel few)

theorem above_add_length (shape : ∀ row ∈ rows, row.length = width) (positive : 0 < tolerance)
    (clear : rows.Clear width tolerance rows.length (rows.extent width)) :
    rows.above width (tolerance * rows.extent width) +
      (Rank.dependentRows rows (tolerance * rows.extent width)).length = rows.length := by
  have extent := rows.extent_pos width
  have few := length_dependentRows_le shape (mul_pos positive extent).le
  rw [(brackets_dependentRows shape positive).above_eq_of_clear positive le_rfl
    (Nat.sub_add_cancel few) clear, Nat.sub_add_cancel few]

/-- **The two ranks agree where no singular value is near the bound.** In any case, the rows that
are not blamed tell how many singular values are above a power of the tolerance, and how many can be
above the bound times the root of the number of rows that are. -/
theorem Rank.rank_add_blamed (exact : methods.ExactValues)
    (shape : ∀ row ∈ rows, row.length = width) (positive : 0 < tolerance) :
    ∃ rank bound blamed, Rank.numeric? methods rows tolerance = some rank ∧
      Rank.threshold? methods rows tolerance = some bound ∧
      bound = tolerance * rows.extent width ∧
      Rank.dependentRows rows bound = blamed ∧ blamed.length ≤ rows.length ∧
      rows.Brackets width (tolerance ^ (rows.length - blamed.length) * rows.extent width)
        (√blamed.length * bound) (rows.length - blamed.length) ∧
      (rows.Clear width tolerance rows.length (rows.extent width) →
        rank + blamed.length = rows.length ∧ (rank < rows.length → blamed ≠ []) ∧
        ∀ others : Matrix ℝ, rows.Perm others →
          Rank.threshold? methods others tolerance = some bound ∧
            (Rank.dependentRows others bound).length = blamed.length) := by
  have extent := rows.extent_pos width
  refine ⟨_, _, _, numeric?_eq exact shape _, threshold?_eq exact shape _, rfl, rfl,
    length_dependentRows_le shape (mul_pos positive extent).le,
    brackets_dependentRows shape positive, fun clear => ?_⟩
  have sum := above_add_length shape positive clear
  refine ⟨sum, fun less none => ?_, fun others perm => ?_⟩
  · rw [none, List.length_nil, Nat.add_zero] at sum
    exact less.ne sum
  · -- in another order the singular values are the same, and what is said of them
    have shape' : ∀ row ∈ others, row.length = width := fun row listed =>
      shape row (perm.mem_iff.mpr listed)
    have clear' : others.Clear width tolerance others.length (others.extent width) := by
      rwa [Matrix.Clear, Matrix.Gap, Matrix.singularValues_perm perm, Matrix.extent_perm perm,
        ← perm.length_eq]
    have sum' := above_add_length shape' positive clear'
    rw [Matrix.above_perm perm, Matrix.extent_perm perm, ← perm.length_eq] at sum'
    refine ⟨?_, by omega⟩
    rw [threshold?_eq exact shape', Matrix.extent_perm perm]

end Ranks

namespace Doubled

/-- A row and the same row again. -/
def rows : Matrix ℝ := [[1], [1]]

theorem one_le_first : 1 ≤ (rows.linearMap 1).singularValues 0 := by
  have far := Spectrum.norm_map_le_first (rows.linearMap 1) !₂[1]
  have length : ‖rows.linearMap 1 !₂[1]‖ ^ 2 = 2 := by
    rw [Matrix.norm_linearMap_sq]
    norm_num [rows, EuclideanSpace.inner_eq_star_dotProduct, rowVector, dotProduct]
  have unit : ‖(!₂[1] : EuclideanSpace ℝ (Fin 1))‖ = 1 := by simp [EuclideanSpace.norm_eq]
  rw [unit, mul_one] at far
  refine le_trans ?_ far
  exact (one_le_sq_iff₀ (norm_nonneg _)).mp (by rw [length]; norm_num)

theorem clear : rows.Clear 1 Scalar.half rows.length (rows.extent 1) := by
  have large := one_le_first
  intro s listed
  have first : s = (rows.linearMap 1).singularValues 0 := by
    simpa [Matrix.singularValues, rows] using listed
  have root : √(2 : ℝ) < 2 := (Real.sqrt_lt' two_pos).mpr (by norm_num)
  have count : ((rows.length : ℕ) : ℝ) = 2 := by norm_num [rows]
  refine .inr ?_
  rw [first, Matrix.extent_eq, max_eq_right large, Scalar.half_real, ← mul_assoc, count]
  exact mul_lt_of_lt_one_left (one_pos.trans_le large) (by linarith)

end Doubled

theorem Rank.rank_add_blamed_doubled :
    Doubled.rows.Clear 1 Scalar.half 2 (Doubled.rows.extent 1) ∧ ∃ rank bound blamed,
      Rank.numeric? Methods.spectral Doubled.rows Scalar.half = some rank ∧
      Rank.threshold? Methods.spectral Doubled.rows Scalar.half = some bound ∧
      Rank.dependentRows Doubled.rows bound = blamed ∧ rank + blamed.length = 2 := by
  have shape : ∀ row ∈ Doubled.rows, row.length = 1 := by simp [Doubled.rows]
  have positive : (0 : ℝ) < Scalar.half := by simp
  obtain ⟨rank, bound, blamed, ranked, bounded, -, found, -, -, agree⟩ :=
    Rank.rank_add_blamed Methods.exactValues_spectral shape positive
  exact ⟨Doubled.clear, rank, bound, blamed, ranked, bounded, found, (agree Doubled.clear).1⟩

/-! ### Rows that lean towards each other -/

namespace Leaning

/-- A row of length one half, and a longer one at less than a right angle to it. -/
noncomputable def rows : Matrix ℝ :=
  [[Scalar.ofDecimal 3 (-1), Scalar.ofDecimal 4 (-1)], [Scalar.ofDecimal 6 (-1), 0]]

/-- A tolerance between what is left of one row and what is left of the other. -/
noncomputable def tolerance : ℝ := Scalar.ofDecimal 45 (-2)

theorem rows_eq : rows = [[3 / 10, 4 / 10], [6 / 10, 0]] := by
  norm_num [rows, Scalar.ofDecimal]

theorem tolerance_eq : tolerance = 45 / 100 := by
  norm_num [tolerance, Scalar.ofDecimal]

theorem norm_sq (x : EuclideanSpace ℝ (Fin 2)) : ‖rows.linearMap 2 x‖ ^ 2 =
    (3 / 10 * x 0 + 4 / 10 * x 1) ^ 2 + (6 / 10 * x 0) ^ 2 := by
  rw [rows_eq, Matrix.norm_linearMap_sq_two]
  simp

theorem first_le : (rows.linearMap 2).singularValues 0 ≤ 1 := by
  refine Spectrum.singularValues_le _ zero_le_one (W := ⊤) (fun x _ => ?_) (by simp)
  refine (sq_le_sq₀ (norm_nonneg _) (by positivity)).mp ?_
  rw [norm_sq, one_mul, EuclideanSpace.real_norm_sq_eq, Fin.sum_univ_two]
  nlinarith [sq_nonneg (x 0 - x 1), sq_nonneg (x 0), sq_nonneg (x 1)]

theorem lt_first : tolerance < (rows.linearMap 2).singularValues 0 := by
  have far := Spectrum.norm_map_le_first (rows.linearMap 2) !₂[1, 0]
  have square := pow_le_pow_left₀ (norm_nonneg _) far 2
  rw [mul_pow, norm_sq, EuclideanSpace.real_norm_sq_eq, Fin.sum_univ_two] at square
  refine lt_of_pow_lt_pow_left₀ 2 ((rows.linearMap 2).singularValues_nonneg 0) ?_
  rw [tolerance_eq]
  norm_num at square ⊢
  linarith

theorem second_le : (rows.linearMap 2).singularValues 1 ≤ tolerance := by
  have near := Spectrum.last_le_norm_map (rows.linearMap 2) (i := 1) (by simp) !₂[1, -2]
  have nonneg := (rows.linearMap 2).singularValues_nonneg 1
  have square := pow_le_pow_left₀ (by positivity) near 2
  rw [mul_pow, norm_sq, EuclideanSpace.real_norm_sq_eq, Fin.sum_univ_two] at square
  refine le_of_sq_le_sq ?_ (by rw [tolerance_eq]; norm_num)
  rw [tolerance_eq]
  norm_num at square ⊢
  linarith

theorem extent_eq : rows.extent 2 = 1 := max_eq_left first_le

theorem norm_pair (a b : ℝ) : Vector.norm [a, b] = √(a * a + b * b) := by
  simp [Vector.norm, Vector.dot, Vector.sum, Scalar.sqrt]

/-- What is left of a row of two entries beyond a direction is the area that it spans with it. -/
theorem norm_remainder_pair {p q : ℝ} (unit : p * p + q * q = 1) (c d : ℝ) :
    Vector.norm (Rank.remainder [[p, q]] [c, d]) = |c * q - d * p| := by
  have along : (c - (c * p + d * q) * p) * p + (d - (c * p + d * q) * q) * q = 0 := by
    linear_combination -(c * p + d * q) * unit
  have area : (c - (c * p + d * q) * p) * (c - (c * p + d * q) * p) +
      (d - (c * p + d * q) * q) * (d - (c * p + d * q) * q) = (c * q - d * p) ^ 2 := by
    linear_combination ((c * p + d * q) ^ 2 - (c * c + d * d)) * unit
  simp only [Rank.remainder, Rank.withoutParts, List.foldl_cons, List.foldl_nil, Vector.dot,
    Vector.sum, List.zipWith_cons_cons, List.zipWith_nil_left, zero_add, along, zero_mul, sub_zero]
  rw [norm_pair, area, Real.sqrt_sq_eq_abs]

/-- Of two rows the second one is blamed when the area between them is small for the length of the
first. -/
theorem dependentRows_pair {a b length bound : ℝ} (positive : 0 < length)
    (long : a * a + b * b = length * length) (kept : bound < length) (c d : ℝ) :
    Rank.dependentRows [[a, b], [c, d]] bound =
      if |c * b - d * a| ≤ bound * length then [1] else [] := by
  have unit : a / length * (a / length) + b / length * (b / length) = 1 := by
    field_simp
    linear_combination long
  have area : |c * (b / length) - d * (a / length)| = |c * b - d * a| / length := by
    rw [← abs_of_pos positive, ← abs_div, abs_of_pos positive]
    congr 1
    ring
  have first : Vector.norm [a, b] = length := by
    rw [norm_pair, long, Real.sqrt_mul_self positive.le]
  have start (row : List ℝ) : Rank.remainder [] row = row := rfl
  have above : Ordered.le length bound = false := by
    rw [Bool.eq_false_iff, Ne, Ordered.le_real]
    exact kept.not_ge
  simp only [Rank.dependentRows, Rank.dependentFrom, start, first, above, List.map_cons,
    List.map_nil, norm_remainder_pair unit, area, List.nil_append, Ordered.le_real,
    div_le_iff₀ positive, if_neg Bool.false_ne_true]

/-- **Two rows that are nearly dependent.** The rank misses a row and none is blamed; with the rows
the other way round the second one is. -/
theorem disagrees : Methods.spectral.ExactValues ∧ 0 < tolerance ∧
    Rank.numeric? Methods.spectral rows tolerance = some 1 ∧
    Rank.threshold? Methods.spectral rows tolerance = some tolerance ∧
    Rank.dependentRows rows tolerance = [] ∧ Rank.dependentRows rows.reverse tolerance = [1] := by
  have shape : ∀ row ∈ rows, row.length = 2 := by simp [rows]
  have positive : 0 < tolerance := by
    rw [tolerance_eq]
    norm_num
  refine ⟨Methods.exactValues_spectral, positive, ?_, ?_, ?_, ?_⟩
  · rw [Rank.numeric?_eq Methods.exactValues_spectral shape, extent_eq, mul_one,
      Matrix.above_eq_of_forall (k := 1) positive.le (fun i first => ?_) second_le]
    rw [Nat.lt_one_iff.mp first]
    exact lt_first
  · rw [Rank.threshold?_eq Methods.exactValues_spectral shape, extent_eq, mul_one]
  · have long : (0 : ℝ) < 5 / 10 := by norm_num
    rw [rows_eq, dependentRows_pair long (by norm_num), if_neg]
    all_goals norm_num [tolerance_eq]
  · have long : (0 : ℝ) < 6 / 10 := by norm_num
    rw [rows_eq, List.reverse_cons, List.reverse_singleton, List.singleton_append,
      dependentRows_pair long (by norm_num), if_pos]
    all_goals norm_num [tolerance_eq]

end Leaning

end PlaneSketch
