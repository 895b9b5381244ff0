import Mathlib
import PlaneSketch.Proofs.Agreement

/-!
Which rows depend on the rows before them.

A reduction walks the rows in order and compares each with the rows that it has kept so far. With
exact arithmetic what it measures is the distance of the row from the space that these span, and so
the rows blamed are told by this distance alone. With no tolerance at all they are the rows that are
combinations of the rows before them.

* `Reduces.mem_blamed_iff`: a position is blamed exactly when its row is close to the space reached.
* `Reduces.reach_added`: the directions found reach what the rows kept do.
* `rowSpace_without_firstRows`: without a tolerance, the rows kept span the rows so far, each time.
* `Rank.dependent_of_nonneg`: what the positions found say of a matrix, and, without a tolerance, of
  every order of its rows.
-/

namespace PlaneSketch

open Module InnerProductSpace

/-! ### Items at positions -/

section Positions

variable {σ : Type} {positions : List Nat} {start : Nat} {items more : List σ}

theorem withoutPositions_append : withoutPositions positions start (items ++ more) =
    withoutPositions positions start items ++
      withoutPositions positions (start + items.length) more := by
  induction items generalizing start with
  | nil => rfl
  | cons a items ih =>
    have shift : start + 1 + items.length = start + (items.length + 1) := by omega
    rw [List.cons_append, withoutPositions, withoutPositions, ih, List.length_cons, shift]
    split <;> rfl

theorem withoutPositions_singleton {a : σ} : withoutPositions positions start [a] =
    if start ∈ positions then [] else [a] := rfl

end Positions

/-! ### Distances in a reduction -/

section Distances

variable {E : Type} [NormedAddCommGroup E] [InnerProductSpace ℝ E]
  {basis rows kept added : List E} {tolerance : ℝ} {position i : Nat} {blamed : List Nat}

/-- What is orthogonal to a space is as long as the way back to the space. -/
theorem infDist_add {V : Submodule ℝ E} {part rest : E} (member : part ∈ V)
    (across : ∀ v ∈ V, ⟪v, rest⟫_ℝ = 0) : Metric.infDist (part + rest) V = ‖rest‖ := by
  refine le_antisymm ?_ ((Metric.le_infDist ⟨0, V.zero_mem⟩).mpr fun {v} inside => ?_)
  · have far := Metric.infDist_le_dist_of_mem (x := part + rest) (s := (V : Set E)) member
    rwa [dist_eq_norm, add_sub_cancel_left] at far
  · have apart := across _ (V.sub_mem member inside)
    have square := norm_add_sq_real (part - v) rest
    rw [apart] at square
    rw [dist_eq_norm, add_sub_right_comm]
    refine le_of_sq_le_sq ?_ (norm_nonneg _)
    rw [square]
    linarith [sq_nonneg ‖part - v‖]

theorem reach_nil : reach ([] : List E) = ⊥ := by
  simp [reach]

theorem reach_append (first second : List E) :
    reach (first ++ second) = reach first ⊔ reach second := by
  rw [reach, reach, reach, ← Submodule.span_union]
  congr 1
  ext q
  simp

theorem reach_cons (v : E) (rest : List E) : reach (v :: rest) = reach [v] ⊔ reach rest :=
  reach_append [v] rest

theorem reach_singleton (v : E) : reach [v] = Submodule.span ℝ {v} := by
  simp [reach]

/-- A row and the direction that it goes on in reach the same, beyond what was reached before. -/
theorem reach_direction {part q : E} {length : ℝ} (within : part ∈ reach basis)
    (nonzero : length ≠ 0) : reach (basis ++ [q]) = reach basis ⊔ reach [part + length • q] := by
  rw [reach_append, reach_singleton, reach_singleton]
  refine le_antisymm (sup_le le_sup_left ?_) (sup_le le_sup_left ?_)
  · rw [Submodule.span_singleton_le_iff_mem]
    have row := Submodule.mem_sup_right (S := reach basis)
      (Submodule.mem_span_singleton_self (R := ℝ) (part + length • q))
    have scaled := Submodule.sub_mem _ row (Submodule.mem_sup_left within)
    rw [add_sub_cancel_left] at scaled
    simpa [smul_smul, nonzero] using Submodule.smul_mem _ length⁻¹ scaled
  · rw [Submodule.span_singleton_le_iff_mem]
    refine Submodule.add_mem _ (Submodule.mem_sup_left within) (Submodule.mem_sup_right ?_)
    exact Submodule.smul_mem _ _ (Submodule.mem_span_singleton_self q)

/-- **The directions found reach what the rows kept do.** -/
theorem Reduces.reach_added (reduces : Reduces tolerance basis position rows blamed kept added)
    (nonneg : 0 ≤ tolerance) : reach (basis ++ added) = reach basis ⊔ reach kept := by
  induction reduces with
  | nil => rw [List.append_nil, reach_nil, sup_bot_eq]
  | blame _ _ _ _ ih => exact ih
  | @keep basis rows kept added position blamed part q length within _ _ long _ ih =>
    rw [List.append_assoc, List.singleton_append] at ih
    rw [ih, reach_direction within (nonneg.trans_lt long).ne', reach_cons (part + length • q) kept,
      sup_assoc]

/-- The positions blamed go up. -/
theorem Reduces.increasing (reduces : Reduces tolerance basis position rows blamed kept added) :
    blamed.Pairwise (· < ·) := by
  induction reduces with
  | nil => exact .nil
  | blame _ _ _ rest ih => exact .cons rest.le_of_mem ih
  | keep _ _ _ _ _ ih => exact ih

theorem Reduces.lt_of_mem (reduces : Reduces tolerance basis position rows blamed kept added) :
    ∀ i ∈ blamed, i < position + rows.length := by
  induction reduces with
  | nil => exact fun _ listed => absurd listed List.not_mem_nil
  | blame _ _ _ _ ih =>
    intro i listed
    rw [List.length_cons]
    rcases List.mem_cons.mp listed with rfl | later
    · omega
    · have inside := ih i later
      omega
  | keep _ _ _ _ _ ih =>
    intro i listed
    have inside := ih i listed
    rw [List.length_cons]
    omega

/-- **A position is blamed exactly when its row is close** to what the rows kept before it reach. -/
theorem Reduces.mem_blamed_iff (reduces : Reduces tolerance basis position rows blamed kept added)
    (nonneg : 0 ≤ tolerance) (inside : i < rows.length) :
    position + i ∈ blamed ↔ Metric.infDist rows[i]
      (reach basis ⊔ reach (withoutPositions blamed position (rows.take i)) : Submodule ℝ E) ≤
        tolerance := by
  induction reduces generalizing i with
  | nil => exact absurd inside (Nat.not_lt_zero i)
  | @blame basis rows kept added position blamed part rest within across short later ih =>
    cases i with
    | zero =>
      have near := infDist_add within fun v reached => inner_eq_zero_of_mem_reach across reached
      simp [withoutPositions, reach_nil, near, short]
    | succ i =>
      have before : withoutPositions (position :: blamed) position
          (((part + rest) :: rows).take (i + 1)) =
            withoutPositions blamed (position + 1) (rows.take i) := by
        rw [List.take_succ_cons, withoutPositions, if_pos List.mem_cons_self]
        refine withoutPositions_congr fun j after => ?_
        simp [Nat.ne_of_gt after]
      have step := ih (Nat.lt_of_succ_lt_succ inside)
      rw [before, List.getElem_cons_succ, ← step, Nat.add_right_comm position 1 i,
        List.mem_cons, Nat.add_assoc]
      simp
  | @keep basis rows kept added position blamed part q length within across unit long later ih =>
    have free : position ∉ blamed := fun listed =>
      absurd (later.le_of_mem _ listed) (Nat.not_succ_le_self position)
    cases i with
    | zero =>
      have orthogonal (v : E) (reached : v ∈ reach basis) : ⟪v, length • q⟫_ℝ = 0 := by
        rw [inner_smul_right, inner_eq_zero_of_mem_reach across reached, mul_zero]
      have far := infDist_add within orthogonal
      rw [norm_smul, unit, mul_one, Real.norm_of_nonneg (nonneg.trans long.le)] at far
      simp [withoutPositions, reach_nil, far, free, long]
    | succ i =>
      have step := ih (Nat.lt_of_succ_lt_succ inside)
      rw [List.take_succ_cons, withoutPositions, if_neg free, reach_cons, ← sup_assoc,
        ← reach_direction within (nonneg.trans_lt long).ne', List.getElem_cons_succ, ← step,
        Nat.add_right_comm position 1 i, Nat.add_assoc]

/-- **The rows kept are independent**: they are as many as their directions. -/
theorem Reduces.finrank_reach_kept (reduces : Reduces tolerance [] position rows blamed kept added)
    (nonneg : 0 ≤ tolerance) : finrank ℝ (reach kept) = kept.length := by
  have same := reduces.reach_added nonneg
  rw [List.nil_append, reach_nil, bot_sup_eq] at same
  obtain ⟨q, rfl⟩ := exists_eq_ofFn reduces.length_added.1
  have directions : Directions (List.ofFn q) := reduces.directions .nil
  have range : {v | v ∈ List.ofFn q} = Set.range q := by
    ext v
    simp [List.mem_ofFn]
  rw [← same, reach, range, finrank_span_eq_card directions.orthonormal.linearIndependent,
    Fintype.card_fin]

end Distances

/-! ### The space of the rows -/

section Space

variable {rows others : Matrix ℝ} {width : Nat} {tolerance : ℝ}

/-- The space that the rows of a matrix span. -/
noncomputable def Matrix.rowSpace (rows : Matrix ℝ) (width : Nat) :
    Submodule ℝ (EuclideanSpace ℝ (Fin width)) :=
  reach (rows.map (rowVector width))

/-- No row is a combination of the others. -/
def Matrix.Independent (rows : Matrix ℝ) (width : Nat) : Prop :=
  LinearIndependent ℝ fun i : Fin rows.length => rowVector width (rows.get i)

/-- Rows are independent when they span as many dimensions as they are. -/
theorem Matrix.independent_iff :
    rows.Independent width ↔ finrank ℝ (rows.rowSpace width) = rows.length := by
  have range : Set.range (fun i : Fin rows.length => rowVector width (rows.get i)) =
      {v | v ∈ rows.map (rowVector width)} := by
    ext v
    constructor
    · rintro ⟨i, rfl⟩
      exact List.mem_map_of_mem (List.get_mem rows i)
    · intro listed
      obtain ⟨row, member, rfl⟩ := List.mem_map.mp listed
      obtain ⟨i, rfl⟩ := List.get_of_mem member
      exact ⟨i, rfl⟩
  rw [Independent, linearIndependent_iff_card_eq_finrank_span, Fintype.card_fin, range]
  exact eq_comm

theorem Matrix.rowSpace_nil : Matrix.rowSpace [] width = ⊥ := reach_nil

theorem Matrix.rowSpace_singleton (row : List ℝ) :
    Matrix.rowSpace [row] width = Submodule.span ℝ {rowVector width row} :=
  reach_singleton _

theorem Matrix.rowSpace_append (first second : Matrix ℝ) :
    Matrix.rowSpace (first ++ second) width = first.rowSpace width ⊔ second.rowSpace width := by
  rw [rowSpace, List.map_append, reach_append, rowSpace, rowSpace]

theorem Matrix.rowSpace_perm (perm : rows.Perm others) :
    others.rowSpace width = rows.rowSpace width := by
  rw [rowSpace, rowSpace, reach, reach]
  congr 1
  ext v
  exact ((perm.map _).mem_iff).symm

/-- The kernel is what is orthogonal to every row. -/
theorem Matrix.ker_linearMap : (rows.linearMap width).ker = (rows.rowSpace width)ᗮ := by
  ext x
  rw [LinearMap.mem_ker, rowSpace, reach, Submodule.mem_orthogonal]
  constructor
  · intro vanish v reached
    refine inner_eq_zero_of_mem_reach (fun q listed => ?_) reached
    obtain ⟨row, member, rfl⟩ := List.mem_map.mp listed
    obtain ⟨i, rfl⟩ := List.get_of_mem member
    rw [← linearMap_apply, vanish]
    rfl
  · intro across
    ext i
    rw [linearMap_apply]
    exact across _ (mem_reach (List.mem_map_of_mem (List.get_mem rows i)))

/-- **The rank is the dimension of the row space.** -/
theorem Matrix.finrank_rowSpace :
    finrank ℝ (rows.rowSpace width) = finrank ℝ (rows.linearMap width).range := by
  have split := (rows.rowSpace width).finrank_add_finrank_orthogonal
  have nullity := (rows.linearMap width).finrank_range_add_finrank_ker
  rw [Matrix.ker_linearMap] at nullity
  omega

/-- The rows of a matrix at none of some positions. -/
def Matrix.without (rows : Matrix ℝ) (positions : List Nat) : Matrix ℝ :=
  withoutPositions positions 0 rows

/-- The first rows of a matrix. -/
def Matrix.firstRows (rows : Matrix ℝ) (count : Nat) : Matrix ℝ := rows.take count

theorem mem_dependentRows_iff (shape : ∀ row ∈ rows, row.length = width) (nonneg : 0 ≤ tolerance)
    {i : Nat} (inside : i < rows.length) : i ∈ Rank.dependentRows rows tolerance ↔
      Metric.infDist (rowVector width rows[i])
        (((rows.firstRows i).without (Rank.dependentRows rows tolerance)).rowSpace width) ≤
          tolerance := by
  obtain ⟨kept, added, reduces⟩ := exists_reduces_dependentRows nonneg shape
  have close := reduces.mem_blamed_iff nonneg (by rwa [List.length_map])
  rw [Nat.zero_add, reach_nil, bot_sup_eq, ← List.map_take, withoutPositions_map,
    List.getElem_map] at close
  exact close

/-- The rows kept span as many dimensions as they are. -/
theorem finrank_rowSpace_without (shape : ∀ row ∈ rows, row.length = width)
    (nonneg : 0 ≤ tolerance) :
    finrank ℝ ((rows.without (Rank.dependentRows rows tolerance)).rowSpace width) =
      (rows.without (Rank.dependentRows rows tolerance)).length := by
  obtain ⟨kept, added, reduces⟩ := exists_reduces_dependentRows nonneg shape
  have full := reduces.finrank_reach_kept nonneg
  rwa [reduces.kept_eq, withoutPositions_map, List.length_map] at full

/-- Without a tolerance a row is close to a space when it lies in it. -/
theorem infDist_le_zero_iff {v : EuclideanSpace ℝ (Fin width)}
    {V : Submodule ℝ (EuclideanSpace ℝ (Fin width))} : Metric.infDist v V ≤ 0 ↔ v ∈ V := by
  have nonempty : (V : Set (EuclideanSpace ℝ (Fin width))).Nonempty := ⟨0, V.zero_mem⟩
  have closed := V.closed_of_finiteDimensional
  rw [Metric.infDist_nonneg.ge_iff_eq', ← closed.mem_iff_infDist_zero nonempty]
  rfl

/-- **Without a tolerance the rows kept span the rows so far**, at each row. -/
theorem rowSpace_without_firstRows (shape : ∀ row ∈ rows, row.length = width) (i : Nat) :
    ((rows.firstRows i).without (Rank.dependentRows rows 0)).rowSpace width =
      (rows.firstRows i).rowSpace width := by
  induction i with
  | zero => rfl
  | succ i ih =>
    by_cases inside : i < rows.length
    · have blames := mem_dependentRows_iff shape le_rfl inside
      rw [ih, infDist_le_zero_iff] at blames
      have next : rows.firstRows (i + 1) = rows.firstRows i ++ [rows[i]] :=
        List.take_succ_eq_append_getElem inside
      have reached : (rows.firstRows i).length = i := List.length_take_of_le inside.le
      have split : Matrix.without (rows.firstRows i ++ [rows[i]]) (Rank.dependentRows rows 0) =
          (rows.firstRows i).without (Rank.dependentRows rows 0) ++
            if i ∈ Rank.dependentRows rows 0 then [] else [rows[i]] := by
        rw [Matrix.without, withoutPositions_append, reached, Nat.zero_add,
          withoutPositions_singleton, Matrix.without]
      rw [next, split, Matrix.rowSpace_append, Matrix.rowSpace_append, ih]
      split_ifs with blamed
      · -- a row that is blamed adds nothing
        have member := blames.mp blamed
        rw [Matrix.rowSpace_nil, sup_bot_eq, Matrix.rowSpace_singleton, left_eq_sup,
          Submodule.span_singleton_le_iff_mem]
        exact member
      · rfl
    · have all : rows.firstRows (i + 1) = rows.firstRows i := by
        rw [Matrix.firstRows, Matrix.firstRows, List.take_of_length_le (by omega),
          List.take_of_length_le (by omega)]
      rw [all, ih]

/-- Some positions of a matrix are those of the rows close to the rows before them: they go up, a
row is at one of them when it is within the tolerance of the space of the rows before it that are at
none, and the rows at none are independent. -/
structure Matrix.Dependent (rows : Matrix ℝ) (width : Nat) (tolerance : ℝ)
    (positions : List Nat) : Prop where
  increasing : positions.Pairwise (· < ·)
  mem_iff : ∀ i, i ∈ positions ↔ ∃ inside : i < rows.length,
    Metric.infDist (rowVector width rows[i])
      (((rows.firstRows i).without positions).rowSpace width) ≤ tolerance
  independent : (rows.without positions).Independent width

/-- The rows at some positions are combinations of the rows before them, and the others are a basis
of the row space. -/
structure Matrix.Basic (rows : Matrix ℝ) (width : Nat) (positions : List Nat) : Prop where
  mem_iff : ∀ i, i ∈ positions ↔ ∃ inside : i < rows.length,
    rowVector width rows[i] ∈ (rows.firstRows i).rowSpace width
  independent : (rows.without positions).Independent width
  spans : (rows.without positions).rowSpace width = rows.rowSpace width

/-- A basis has as many rows as the rank says. -/
theorem Matrix.Basic.length_eq {positions : List Nat} (basic : rows.Basic width positions) :
    (rows.without positions).length = finrank ℝ (rows.linearMap width).range := by
  rw [← Matrix.independent_iff.mp basic.independent, basic.spans, Matrix.finrank_rowSpace]

theorem lt_of_mem_dependentRows (shape : ∀ row ∈ rows, row.length = width)
    (nonneg : 0 ≤ tolerance) {i : Nat} (blamed : i ∈ Rank.dependentRows rows tolerance) :
    i < rows.length := by
  obtain ⟨kept, added, reduces⟩ := exists_reduces_dependentRows nonneg shape
  simpa using reduces.lt_of_mem i blamed

/-- **The rows found are those close to the rows kept before them.** -/
theorem dependent_dependentRows (shape : ∀ row ∈ rows, row.length = width)
    (nonneg : 0 ≤ tolerance) :
    rows.Dependent width tolerance (Rank.dependentRows rows tolerance) := by
  obtain ⟨kept, added, reduces⟩ := exists_reduces_dependentRows nonneg shape
  refine ⟨reduces.increasing, fun i => ⟨fun blamed => ?_, ?_⟩, ?_⟩
  · have inside := lt_of_mem_dependentRows shape nonneg blamed
    exact ⟨inside, (mem_dependentRows_iff shape nonneg inside).mp blamed⟩
  · rintro ⟨inside, close⟩
    exact (mem_dependentRows_iff shape nonneg inside).mpr close
  · exact Matrix.independent_iff.mpr (finrank_rowSpace_without shape nonneg)

/-- **Without a tolerance the other rows are a basis.** -/
theorem basic_dependentRows (shape : ∀ row ∈ rows, row.length = width) :
    rows.Basic width (Rank.dependentRows rows 0) := by
  have dependent := dependent_dependentRows shape le_rfl
  refine ⟨fun i => (dependent.mem_iff i).trans ?_, dependent.independent, ?_⟩
  · simp only [rowSpace_without_firstRows shape, infDist_le_zero_iff]
  · have whole : rows.firstRows rows.length = rows := List.take_length
    have last := rowSpace_without_firstRows shape rows.length
    rwa [whole] at last

/-- **The rows blamed are told by their distance** from the space of the rows kept before them. With
no tolerance they are the combinations of the rows before them, and in whatever order the rows
stand, the others are a basis of the row space, as many as the rank says. -/
theorem Rank.dependent_of_nonneg (shape : ∀ row ∈ rows, row.length = width)
    (nonneg : 0 ≤ tolerance) :
    rows.Dependent width tolerance (Rank.dependentRows rows tolerance) ∧
      ∀ others : Matrix ℝ, rows.Perm others →
        others.Basic width (Rank.dependentRows others 0) ∧
          others.rowSpace width = rows.rowSpace width ∧
          (others.without (Rank.dependentRows others 0)).length =
            finrank ℝ (rows.linearMap width).range := by
  refine ⟨dependent_dependentRows shape nonneg, fun others perm => ?_⟩
  have shape' : ∀ row ∈ others, row.length = width := fun row listed =>
    shape row (perm.mem_iff.mpr listed)
  have basic := basic_dependentRows shape'
  refine ⟨basic, Matrix.rowSpace_perm perm, ?_⟩
  rw [basic.length_eq, ← Matrix.finrank_rowSpace, Matrix.rowSpace_perm perm,
    Matrix.finrank_rowSpace]

end Space

namespace Crossing

/-- Two rows at right angles, and their sum. -/
def rows : Matrix ℝ := [[1, 0], [0, 1], [1, 1]]

theorem dependentRows_eq : Rank.dependentRows rows 0 = [2] := by
  have long : ¬(1 : ℝ) ≤ 0 := not_le.mpr one_pos
  simp [rows, Rank.dependentRows, Rank.dependentFrom, Rank.remainder, Rank.withoutParts,
    Vector.norm, Vector.dot, Vector.sum, Scalar.sqrt, long]

end Crossing

/-- The sum is blamed when it comes last; in the reverse order two rows are kept as well. -/
theorem Rank.dependent_of_nonneg_crossing :
    (∀ row ∈ Crossing.rows, row.length = 2) ∧ (0 : ℝ) ≤ 0 ∧
      Rank.dependentRows Crossing.rows 0 = [2] ∧ Crossing.rows.Dependent 2 0 [2] ∧
      Crossing.rows.Basic 2 [2] ∧
      (Matrix.without Crossing.rows.reverse (Rank.dependentRows Crossing.rows.reverse 0)).length =
        2 := by
  have shape : ∀ row ∈ Crossing.rows, row.length = 2 := by simp [Crossing.rows]
  obtain ⟨dependent, orders⟩ := Rank.dependent_of_nonneg shape le_rfl
  have here := orders _ (List.Perm.refl _)
  have reversed := orders _ (List.reverse_perm _).symm
  rw [← here.2.2] at reversed
  rw [Crossing.dependentRows_eq] at here dependent reversed
  exact ⟨shape, le_rfl, Crossing.dependentRows_eq, dependent, here.1, reversed.2.2⟩

end PlaneSketch
