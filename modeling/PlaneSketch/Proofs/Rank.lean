import Mathlib
import PlaneSketch.LinearAlgebra.Rank
import PlaneSketch.Proofs.LeastSquares

/-!
Exact singular values, and what they say about the rank.

The singular values of a matrix are those of its linear map. A method is exact when it finds them;
then the numeric rank never exceeds the rank of the map, whatever the tolerance, and a kernel of a
known dimension bounds it from above.
-/

namespace PlaneSketch

open Module

/-- The singular values of a matrix in decreasing order, as many as its shorter side has entries. -/
noncomputable def Matrix.singularValues (rows : Matrix ℝ) (width : Nat) : List ℝ :=
  (List.range (min rows.length width)).map (rows.linearMap width).singularValues

/-- Every matrix that has entries gets its singular values. -/
def Methods.ExactValues (methods : Methods ℝ) : Prop :=
  ∀ (width : Nat) (rows : Matrix ℝ), (∀ row ∈ rows, row.length = width) → rows.size ≠ 0 →
    methods.singularValues? rows = some (rows.singularValues width)

/-- Orthogonal steps and exact singular values. -/
noncomputable def Methods.spectral : Methods ℝ :=
  { Methods.orthogonal with
    singularValues? := fun rows => some (rows.singularValues (rows.headD []).length) }

/-- **There is a method with exact singular values.** -/
theorem Methods.exactValues_spectral : Methods.spectral.ExactValues := by
  intro width rows shape entries
  cases rows with
  | nil => exact absurd rfl entries
  | cons row rows =>
    rw [← shape row List.mem_cons_self]
    rfl

section Kernel

variable {rows : Matrix ℝ} {width : Nat}

/-- A vector that is orthogonal to every row is in the kernel. -/
theorem Matrix.linearMap_eq_zero (shape : ∀ row ∈ rows, row.length = width)
    {e : EuclideanSpace ℝ (Fin width)}
    (orthogonal : ∀ row ∈ rows, Vector.dot row (List.ofFn e) = 0) : rows.linearMap width e = 0 := by
  ext i
  have row := List.get_mem rows i
  have entry := orthogonal _ row
  rw [dot_ofFn _ (shape _ row)] at entry
  simpa [linearMap, Matrix.mulVec, dotProduct] using entry

/-- Independent vectors of the kernel are missing from the rank. -/
theorem Matrix.finrank_range_add_le {k : Nat} {kernel : Fin k → EuclideanSpace ℝ (Fin width)}
    (independent : LinearIndependent ℝ kernel) (vanish : ∀ i, rows.linearMap width (kernel i) = 0) :
    finrank ℝ (rows.linearMap width).range + k ≤ width := by
  have inside : LinearIndependent ℝ fun i => (⟨kernel i, vanish i⟩ : (rows.linearMap width).ker) :=
    LinearIndependent.of_comp (rows.linearMap width).ker.subtype independent
  have large : k ≤ finrank ℝ (rows.linearMap width).ker := by
    simpa using inside.fintype_card_le_finrank
  have nullity := (rows.linearMap width).finrank_range_add_finrank_ker
  rw [finrank_euclideanSpace_fin] at nullity
  omega

/-- Only as many singular values are positive as the rank says. -/
theorem Matrix.countP_singularValues_le {bound : ℝ} (nonneg : 0 ≤ bound) :
    (rows.singularValues width).countP (fun s => Ordered.lt bound s) ≤
      finrank ℝ (rows.linearMap width).range := by
  rw [singularValues, List.countP_map, List.countP_eq_length_filter]
  have positive : (List.range (min rows.length width)).filter
      ((fun s => Ordered.lt bound s) ∘ (rows.linearMap width).singularValues) ⊆
        List.range (finrank ℝ (rows.linearMap width).range) := by
    intro i counted
    have above : bound < (rows.linearMap width).singularValues i := by
      simpa using (List.mem_filter.mp counted).2
    rw [List.mem_range, ← LinearMap.singularValues_pos_iff_lt_finrank_range]
    exact nonneg.trans_lt above
  simpa using ((List.nodup_range.filter _).subperm positive).length_le

/-- **With exact singular values the numeric rank is found, and is at most the rank.** -/
theorem Rank.exists_numeric?_le {methods : Methods ℝ} (exact : methods.ExactValues)
    (shape : ∀ row ∈ rows, row.length = width) {tolerance : ℝ} (nonneg : 0 ≤ tolerance) :
    ∃ rank, Rank.numeric? methods rows tolerance = some rank ∧
      rank ≤ finrank ℝ (rows.linearMap width).range := by
  unfold Rank.numeric?
  split
  · exact ⟨0, rfl, Nat.zero_le _⟩
  · rename_i entries
    refine ⟨_, by rw [exact width rows shape entries, Option.map_some], ?_⟩
    refine Matrix.countP_singularValues_le (mul_nonneg nonneg ?_)
    unfold Scalar.raise
    split
    · rename_i larger
      exact zero_le_one.trans (Ordered.lt_real.mp larger).le
    · exact zero_le_one

end Kernel

end PlaneSketch
