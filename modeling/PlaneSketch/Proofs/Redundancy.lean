import Mathlib
import PlaneSketch.Proofs.Agreement
import PlaneSketch.Proofs.Diagnosis
import PlaneSketch.Proofs.Success

/-!
What a redundant constraint can give up.

A constraint is reported as redundant as soon as one of its rows is blamed, even when others of its
rows are needed. So it is the rows blamed on it that can go, and all of its rows when all are
blamed; and the rank stays as it is where no singular value is near the bound.

* `removable_of_redundant`: the rows blamed on a redundant constraint can be left out.
* `exists_needed`: leaving out all rows of a redundant constraint can lower the rank, be it because
  one of them is not blamed, or because a singular value is near the bound.
-/

namespace PlaneSketch

/-! ### Rows that can go -/

/-- The rows blamed on a constraint. -/
def Diagnosis.blamedOn {α : Type} (system : Equations α) (diagnosis : Diagnosis) (h : Handle) :
    List Nat :=
  diagnosis.dependent.filter fun row => rowConstraint? system row = some h

/-- Some rows of a Jacobian can be left out: with them and without them, as many singular values as
there are rows not blamed are above a power of the tolerance, and no more are above the bound for
all rows blamed. And where no singular value is near the bound, rank and freedom stay what they are.
-/
structure Diagnosis.Removable (methods : Methods ℝ) (tolerance : ℝ) (width : Nat)
    (jacobian left : Matrix ℝ) (diagnosis : Diagnosis) : Prop where
  before : jacobian.Brackets width
    (tolerance ^ (jacobian.length - diagnosis.dependent.length) * jacobian.extent width)
    (√diagnosis.dependent.length * (tolerance * jacobian.extent width))
    (jacobian.length - diagnosis.dependent.length)
  after : left.Brackets width
    (tolerance ^ (jacobian.length - diagnosis.dependent.length) * jacobian.extent width)
    (√diagnosis.dependent.length * (tolerance * jacobian.extent width))
    (jacobian.length - diagnosis.dependent.length)
  same : jacobian.Clear width tolerance jacobian.length (jacobian.extent width) →
    left.Clear width tolerance jacobian.length (jacobian.extent width) →
    ∃ rank, Rank.numeric? methods left tolerance = some rank ∧ rank = diagnosis.rank ∧
      (width : Int) - rank = diagnosis.dof

section Removal

variable {methods : Methods ℝ} {options : Options ℝ} {pool : Pool ℝ} {system : Equations ℝ}
  {outcome : Outcome ℝ} {diagnosis : Diagnosis} {pull : Option (Pull ℝ)} {x : List ℝ} {h : Handle}

/-- A redundant constraint has a row that is blamed, and rows are blamed by a reduction. -/
theorem exists_blamed_of_redundant
    (diagnosed : diagnose methods options pool system outcome = .ok diagnosis)
    (listed : h ∈ diagnosis.redundant) : diagnosis.blamedOn system h ≠ [] ∧ ∃ bound,
      Rank.threshold? methods outcome.jacobian options.rankTolerance = some bound ∧
      diagnosis.dependent = Rank.dependentRows outcome.jacobian bound := by
  have tells := tells_of_diagnose diagnosed
  rw [tells.redundant] at listed
  split at listed
  · rw [mem_firstOccurrences] at listed
    obtain ⟨row, blamed, owned⟩ := List.mem_filterMap.mp listed
    refine ⟨List.ne_nil_of_mem (List.mem_filter.mpr ⟨blamed, decide_eq_true owned⟩), ?_⟩
    rcases Diagnosis.blamed_cases tells.blamed with ⟨-, none⟩ | ⟨bound, -, found, dependent⟩
    · rw [none] at blamed
      cases blamed
    · exact ⟨bound, found, dependent⟩
  · cases listed

/-- **Any rows that are blamed can go together.** -/
theorem removable_of_subset (exact : methods.ExactValues) (positive : 0 < options.rankTolerance)
    (shape : ∀ row ∈ outcome.jacobian, row.length = system.free.length)
    (tells : diagnosis.Tells methods options pool system outcome) {bound : ℝ}
    (found : Rank.threshold? methods outcome.jacobian options.rankTolerance = some bound)
    (dependent : diagnosis.dependent = Rank.dependentRows outcome.jacobian bound)
    {positions : List Nat} (blamed : positions ⊆ diagnosis.dependent) :
    diagnosis.Removable methods options.rankTolerance system.free.length outcome.jacobian
      (withoutPositions positions 0 outcome.jacobian) := by
  have extent := outcome.jacobian.extent_pos system.free.length
  rw [Rank.threshold?_eq exact shape] at found
  obtain rfl := Option.some.inj found
  have few := length_dependentRows_le shape (mul_pos positive extent).le
  rw [← dependent] at few
  have size := Nat.sub_add_cancel few
  -- the rows kept are left in both, and bracket the singular values of both
  have fewer : (withoutPositions positions 0 outcome.jacobian).Sublist outcome.jacobian :=
    withoutPositions_sublist_self
  have before := brackets_of_reduced shape positive dependent.symm (List.Sublist.refl _)
    withoutPositions_sublist_self size
  have after := brackets_of_reduced shape positive dependent.symm fewer
    (withoutPositions_sublist blamed) size
  refine ⟨before, after, fun clear clear' => ?_⟩
  have ranked := tells.ranked
  rw [Rank.numeric?_eq exact shape, before.above_eq_of_clear positive le_rfl size clear] at ranked
  have kept := Option.some.inj ranked
  have shape' : ∀ row ∈ withoutPositions positions 0 outcome.jacobian,
      row.length = system.free.length := fun row listed => shape row (fewer.subset listed)
  refine ⟨_, Rank.numeric?_eq exact shape' _, ?_, ?_⟩
  · rw [after.above_eq_of_clear positive (Matrix.extent_le fewer) size clear', kept]
  · rw [after.above_eq_of_clear positive (Matrix.extent_le fewer) size clear', kept, tells.dof]

/-- **The rows blamed on a redundant constraint can go**, and these are all its rows when all its
rows are blamed. -/
theorem removable_of_redundant (exact : methods.ExactValues)
    (positive : 0 < options.rankTolerance)
    (done : (system.solve methods options pull x).outcome = .ok outcome)
    (diagnosed : diagnose methods options pool system outcome = .ok diagnosis)
    (listed : h ∈ diagnosis.redundant) :
    diagnosis.blamedOn system h ≠ [] ∧
    diagnosis.Removable methods options.rankTolerance system.free.length outcome.jacobian
      (withoutPositions (diagnosis.blamedOn system h) 0 outcome.jacobian) ∧
    (system.rowsOf h ⊆ diagnosis.dependent →
      diagnosis.Removable methods options.rankTolerance system.free.length outcome.jacobian
        (withoutPositions (system.rowsOf h) 0 outcome.jacobian)) := by
  obtain ⟨blames, bound, found, dependent⟩ := exists_blamed_of_redundant diagnosed listed
  obtain ⟨y, steps, -, ended⟩ := Equations.outcome_of_solve done
  have shape : ∀ row ∈ outcome.jacobian, row.length = system.free.length := by
    rw [ended]
    exact fun row listed => Equations.length_of_mem_jacobian listed
  have tells := tells_of_diagnose diagnosed
  exact ⟨blames,
    removable_of_subset exact positive shape tells found dependent (List.filter_subset_self _),
    removable_of_subset exact positive shape tells found dependent⟩

end Removal

/-! ### Three equations for two numbers -/

/-- A system at rest, of three rows that shorten no vector and stretch none to twice its length. The
last row, which a constraint owns, depends on the others. -/
structure Overfull (system : Equations ℝ) (x : List ℝ) (rows : Matrix ℝ) (h : Handle) : Prop where
  rest : ∀ r ∈ system.residuals x, r = 0
  jacobian : system.jacobian x = rows
  three : system.rows = 3
  shape : ∀ row ∈ rows, row.length = 2
  le_norm : ∀ x, ‖x‖ ^ 2 ≤ ‖rows.linearMap 2 x‖ ^ 2
  norm_le : ∀ x, ‖rows.linearMap 2 x‖ ^ 2 ≤ (1 + Scalar.two) * ‖x‖ ^ 2
  third : ∀ bound, 0 ≤ bound → bound < 1 → Rank.dependentRows rows bound = [2]
  owner : Diagnosis.rowConstraint? system 2 = some h

namespace Overfull

variable {system : Equations ℝ} {x : List ℝ} {rows : Matrix ℝ} {h : Handle} {options : Options ℝ}
  {tolerance bound : ℝ}

theorem extent_lt (overfull : Overfull system x rows h) : rows.extent 2 < 2 := by
  have root : √(3 : ℝ) < 2 := (Real.sqrt_lt' two_pos).mpr (by norm_num)
  have first : (rows.linearMap 2).singularValues 0 ≤ √3 := by
    refine Spectrum.singularValues_le _ (Real.sqrt_nonneg 3) (W := ⊤) (fun x _ => ?_) (by simp)
    refine (sq_le_sq₀ (norm_nonneg _) (by positivity)).mp ((overfull.norm_le x).trans_eq ?_)
    rw [mul_pow, Real.sq_sqrt (by norm_num), Scalar.two_real]
    norm_num
  rw [Matrix.extent_eq]
  exact max_lt one_lt_two (first.trans_lt root)

theorem bound_lt_one (overfull : Overfull system x rows h) (positive : 0 < tolerance)
    (small : tolerance ≤ 1 / 2) : tolerance * rows.extent 2 < 1 := by
  calc tolerance * rows.extent 2 < tolerance * 2 :=
        mul_lt_mul_of_pos_left overfull.extent_lt positive
    _ ≤ 1 / 2 * 2 := mul_le_mul_of_nonneg_right small zero_le_two
    _ = 1 := by norm_num

theorem far (overfull : Overfull system x rows h) (small : bound < 1)
    (y : EuclideanSpace ℝ (Fin 2)) (nonzero : y ≠ 0) : bound * ‖y‖ < ‖rows.linearMap 2 y‖ := by
  have stretched := (sq_le_sq₀ (norm_nonneg _) (norm_nonneg _)).mp (overfull.le_norm y)
  exact (mul_lt_of_lt_one_left (norm_pos_iff.mpr nonzero) small).trans_le stretched

/-- The solve ends where it starts, and the last constraint is redundant. -/
theorem exists_redundant (overfull : Overfull system x rows h) (positive : 0 < options.tolerance)
    (positive' : 0 < options.rankTolerance) (small : options.rankTolerance ≤ 1 / 2) :
    ∃ outcome diagnosis, (system.solve Methods.spectral options none x).outcome = .ok outcome ∧
      outcome.converged = true ∧ outcome.jacobian = rows ∧
      diagnose Methods.spectral options .empty system outcome = .ok diagnosis ∧
      diagnosis.rank = 2 ∧ diagnosis.dependent = [2] ∧ h ∈ diagnosis.redundant := by
  have converged := Equations.converged_at_rest overfull.rest positive 0
  have jacobian : (system.outcomeAt options x 0).jacobian = rows := overfull.jacobian
  have less := overfull.bound_lt_one positive' small
  have nonneg := (mul_pos positive' (rows.extent_pos 2)).le
  have ranked : Rank.numeric? Methods.spectral (system.outcomeAt options x 0).jacobian
      options.rankTolerance = some 2 := by
    rw [jacobian, Rank.numeric?_eq Methods.exactValues_spectral overfull.shape,
      Matrix.above_eq_width nonneg (overfull.far less)]
  have blamed : Diagnosis.blamed Methods.spectral options system
      (system.outcomeAt options x 0).jacobian 2 = .ok [2] := by
    rw [jacobian, Diagnosis.blamed_of_lt (overfull.three ▸ by omega)
      (Rank.threshold?_eq Methods.exactValues_spectral overfull.shape _),
      overfull.third _ nonneg less]
  obtain ⟨diagnosis, diagnosed, rank, dependent⟩ := exists_diagnose ranked blamed
  refine ⟨_, diagnosis,
    congrArg Attempt.outcome (Equations.solve_at_rest _ overfull.rest positive), converged,
    jacobian, diagnosed, rank, dependent, ?_⟩
  rw [(tells_of_diagnose diagnosed).redundant, if_pos converged, dependent, mem_firstOccurrences]
  exact List.mem_filterMap.mpr ⟨2, List.mem_singleton_self 2, overfull.owner⟩

end Overfull

/-! ### Two circles of one size -/

namespace Loop

/-- Two circles that have to be of size one, and of one size. -/
def system : Equations ℝ where
  blocks := [⟨.constraint ⟨0, 0⟩ .radius, .radius (.circle ⟨1, 0⟩) 1⟩,
    ⟨.constraint ⟨1, 0⟩ .radiusEqual, .radiusRatio (.circle ⟨1, 0⟩) (.circle ⟨2, 0⟩) 1⟩,
    ⟨.constraint ⟨2, 0⟩ .radius, .radius (.circle ⟨2, 0⟩) 1⟩]
  free := [⟨⟨1, 0⟩, .r⟩, ⟨⟨2, 0⟩, .r⟩]
  constants := fun _ => 0

theorem norm_sq (x : EuclideanSpace ℝ (Fin 2)) :
    ‖Matrix.linearMap [[1, 0], [1, -1], [0, 1]] 2 x‖ ^ 2 =
      x 0 ^ 2 + (x 0 - x 1) ^ 2 + x 1 ^ 2 := by
  rw [Matrix.norm_linearMap_sq_two]
  simp
  ring

theorem overfull : Overfull system [1, 1] [[1, 0], [1, -1], [0, 1]] ⟨2, 0⟩ where
  rest := by
    have residuals : system.residuals [1, 1] = [1 - 1, 1 - 1 * 1, 1 - 1] := by cbv
    simp [residuals]
  jacobian := by
    simp [system, Equations.jacobian, Block.jacobian, Relation.gradient, Relation.slots,
      Radius.gradient, Radius.slots, Block.partialBy]
  three := rfl
  shape := by simp
  le_norm x := by
    rw [norm_sq, EuclideanSpace.real_norm_sq_eq, Fin.sum_univ_two]
    nlinarith [sq_nonneg (x 0 - x 1)]
  norm_le x := by
    rw [norm_sq, EuclideanSpace.real_norm_sq_eq, Fin.sum_univ_two, Scalar.two_real]
    nlinarith [sq_nonneg (x 0 + x 1)]
  third bound nonneg small := by
    simp [Rank.dependentRows, Rank.dependentFrom, Rank.remainder, Rank.withoutParts, Vector.norm,
      Vector.dot, Vector.sum, Scalar.sqrt, nonneg, small.not_ge]
  owner := rfl

theorem left_eq : withoutPositions (system.rowsOf ⟨2, 0⟩) 0 [[1, 0], [1, -1], [0, 1]] =
    [[(1 : ℝ), 0], [1, -1]] := rfl

theorem norm_sq_left (x : EuclideanSpace ℝ (Fin 2)) :
    ‖Matrix.linearMap [[1, 0], [1, -1]] 2 x‖ ^ 2 = x 0 ^ 2 + (x 0 - x 1) ^ 2 := by
  rw [Matrix.norm_linearMap_sq_two]
  simp [← sub_eq_add_neg]

/-- Without the last constraint the sizes still follow, if not as well. -/
theorem far_left {bound : ℝ} (small : bound ≤ 1 / 2) (x : EuclideanSpace ℝ (Fin 2))
    (nonzero : x ≠ 0) : bound * ‖x‖ < ‖Matrix.linearMap [[1, 0], [1, -1]] 2 x‖ := by
  have positive := norm_pos_iff.mpr nonzero
  have size : 0 < x 0 ^ 2 + x 1 ^ 2 := by
    have square := pow_pos positive 2
    rwa [EuclideanSpace.real_norm_sq_eq, Fin.sum_univ_two] at square
  refine (mul_le_mul_of_nonneg_right small positive.le).trans_lt ?_
  refine (sq_lt_sq₀ (by positivity) (norm_nonneg _)).mp ?_
  rw [mul_pow, norm_sq_left, EuclideanSpace.real_norm_sq_eq, Fin.sum_univ_two]
  nlinarith [sq_nonneg (5 * x 0 - 4 * x 1)]

/-- With a coarse tolerance the two sizes that are left do not count as independent. -/
theorem second_le : (Matrix.linearMap [[1, 0], [1, -1]] 2).singularValues 1 ≤
    Scalar.half * Matrix.extent [[1, 0], [1, -1]] 2 := by
  have near := Spectrum.last_le_norm_map (Matrix.linearMap [[1, 0], [1, -1]] 2) (i := 1) (by simp)
    !₂[2, 3]
  have wide := Spectrum.norm_map_le_first (Matrix.linearMap [[1, 0], [1, -1]] 2) !₂[3, -2]
  have nonneg := (Matrix.linearMap [[1, 0], [1, -1]] 2).singularValues_nonneg 1
  have nonneg' := (Matrix.linearMap [[1, 0], [1, -1]] 2).singularValues_nonneg 0
  have square := pow_le_pow_left₀ (by positivity) near 2
  have square' := pow_le_pow_left₀ (norm_nonneg _) wide 2
  rw [mul_pow, norm_sq_left, EuclideanSpace.real_norm_sq_eq, Fin.sum_univ_two] at square square'
  have half : (Matrix.linearMap [[1, 0], [1, -1]] 2).singularValues 1 ≤
      1 / 2 * (Matrix.linearMap [[1, 0], [1, -1]] 2).singularValues 0 := by
    refine (sq_le_sq₀ nonneg (by positivity)).mp ?_
    norm_num [mul_pow] at square square' ⊢
    linarith
  rw [Scalar.half_real]
  exact half.trans (mul_le_mul_of_nonneg_left (le_max_right _ _) (by norm_num))

end Loop

theorem removable_of_redundant_loop : ∃ outcome diagnosis rank,
    (Loop.system.solve Methods.spectral Options.real none [1, 1]).outcome = .ok outcome ∧
    diagnose Methods.spectral Options.real .empty Loop.system outcome = .ok diagnosis ∧
    ⟨2, 0⟩ ∈ diagnosis.redundant ∧
    Rank.numeric? Methods.spectral
      (withoutPositions (Loop.system.rowsOf ⟨2, 0⟩) 0 outcome.jacobian)
      Options.real.rankTolerance = some rank ∧ rank = diagnosis.rank := by
  have tolerance := Options.rankTolerance_real
  have positive : 0 < Options.real.rankTolerance := by
    rw [tolerance]
    norm_num
  obtain ⟨outcome, diagnosis, done, -, jacobian, diagnosed, -, dependent, redundant⟩ :=
    Loop.overfull.exists_redundant Options.tolerance_real_pos positive (by rw [tolerance]; norm_num)
  obtain ⟨-, -, removable⟩ := removable_of_redundant Methods.exactValues_spectral positive done
    diagnosed redundant
  obtain ⟨-, -, same⟩ := removable (by rw [dependent]; decide)
  have small : √(3 : ℝ) * (Options.real.rankTolerance *
      Matrix.extent [[1, 0], [1, -1], [0, 1]] 2) ≤ 1 / 2 := by
    have root : √(3 : ℝ) ≤ 2 := Real.sqrt_le_iff.mpr (by norm_num)
    have extent := Loop.overfull.extent_lt.le
    have nonneg := (Matrix.extent_pos [[1, 0], [1, -1], [0, 1]] 2).le
    rw [tolerance]
    nlinarith
  rw [jacobian, Loop.left_eq] at same
  obtain ⟨rank, ranked, kept, -⟩ := same
    (Matrix.gap_of_far (Loop.overfull.far (small.trans_lt (by norm_num))))
    (Matrix.gap_of_far (Loop.far_left small))
  refine ⟨outcome, diagnosis, rank, done, diagnosed, redundant, ?_, kept⟩
  rw [jacobian, Loop.left_eq]
  exact ranked

/-! ### Redundant constraints that the rank needs -/

/-- A constraint is reported as redundant where a system has converged, and without its rows the
rank is lower. -/
def Equations.Needs (methods : Methods ℝ) (options : Options ℝ) (system : Equations ℝ)
    (x : List ℝ) (h : Handle) : Prop :=
  ∃ outcome diagnosis rank, (system.solve methods options none x).outcome = .ok outcome ∧
    outcome.converged = true ∧ diagnose methods options .empty system outcome = .ok diagnosis ∧
    h ∈ diagnosis.redundant ∧
    Rank.numeric? methods (withoutPositions (system.rowsOf h) 0 outcome.jacobian)
      options.rankTolerance = some rank ∧ rank < diagnosis.rank

namespace Corner

/-- A line from a fixed point that has to be level, and of length one to the right. -/
def system : Equations ℝ where
  blocks := [⟨.constraint ⟨1, 0⟩ .alongAxis, .level ⟨⟨0, 0⟩, .y⟩ ⟨⟨1, 0⟩, .y⟩⟩,
    ⟨.constraint ⟨2, 0⟩ .length, .offset ⟨0, 0⟩ ⟨1, 0⟩ ⟨1, 0⟩⟩]
  free := coordinates [⟨1, 0⟩]
  constants := fun _ => 0

theorem norm_sq (x : EuclideanSpace ℝ (Fin 2)) :
    ‖Matrix.linearMap [[0, 1], [1, 0], [0, 1]] 2 x‖ ^ 2 = x 1 ^ 2 + x 0 ^ 2 + x 1 ^ 2 := by
  rw [Matrix.norm_linearMap_sq_two]
  simp
  ring

theorem overfull : Overfull system [1, 0] [[0, 1], [1, 0], [0, 1]] ⟨2, 0⟩ where
  rest := by
    have residuals : system.residuals [1, 0] = [0 - 0, 1 - 0 - 1, 0 - 0 - 0] := by cbv
    simp [residuals]
  jacobian := by
    simp [system, Equations.jacobian, Block.jacobian, Relation.gradient, Relation.slots,
      Block.partialBy, coordinates]
  three := rfl
  shape := by simp
  le_norm x := by
    rw [norm_sq, EuclideanSpace.real_norm_sq_eq, Fin.sum_univ_two]
    nlinarith [sq_nonneg (x 1)]
  norm_le x := by
    rw [norm_sq, EuclideanSpace.real_norm_sq_eq, Fin.sum_univ_two, Scalar.two_real]
    nlinarith [sq_nonneg (x 0), sq_nonneg (x 1)]
  third bound nonneg small := by
    simp [Rank.dependentRows, Rank.dependentFrom, Rank.remainder, Rank.withoutParts, Vector.norm,
      Vector.dot, Vector.sum, Scalar.sqrt, nonneg, small.not_ge]
  owner := rfl

end Corner

/-- The settings with a tolerance of one half for the rank. -/
noncomputable def Options.coarse : Options ℝ := { Options.real with rankTolerance := Scalar.half }

/-- **Redundant constraints can be needed**: one of two rows because the other row is not blamed,
one of a single row because the tolerance is coarse. -/
theorem exists_needed : Methods.spectral.ExactValues ∧
    Corner.system.Needs Methods.spectral Options.real [1, 0] ⟨2, 0⟩ ∧
    Loop.system.Needs Methods.spectral Options.coarse [1, 1] ⟨2, 0⟩ := by
  refine ⟨Methods.exactValues_spectral, ?_, ?_⟩
  · have tolerance := Options.rankTolerance_real
    obtain ⟨outcome, diagnosis, done, converged, jacobian, diagnosed, rank, -, redundant⟩ :=
      Corner.overfull.exists_redundant Options.tolerance_real_pos (by rw [tolerance]; norm_num)
        (by rw [tolerance]; norm_num)
    have shape : ∀ row ∈ ([[0, 1]] : Matrix ℝ), row.length = 2 := by simp
    have ranked := Rank.numeric?_eq Methods.exactValues_spectral shape Options.real.rankTolerance
    have left : [[0, 1]] = withoutPositions (Corner.system.rowsOf ⟨2, 0⟩) 0 outcome.jacobian := by
      rw [jacobian]
      rfl
    rw [left] at ranked
    refine ⟨outcome, diagnosis, _, done, converged, diagnosed, redundant, ranked, ?_⟩
    -- one row is left for a rank of two
    rw [rank, ← left]
    exact Nat.lt_succ_of_le Matrix.above_le_length
  · have tolerance : Options.coarse.rankTolerance = 1 / 2 := Scalar.half_real
    have usual : 0 < Options.coarse.tolerance := Options.tolerance_real_pos
    obtain ⟨outcome, diagnosis, done, converged, jacobian, diagnosed, rank, -, redundant⟩ :=
      Loop.overfull.exists_redundant usual (by rw [tolerance]; norm_num) tolerance.le
    have shape : ∀ row ∈ ([[1, 0], [1, -1]] : Matrix ℝ), row.length = 2 := by simp
    have ranked := Rank.numeric?_eq Methods.exactValues_spectral shape Options.coarse.rankTolerance
    rw [← Loop.left_eq, ← jacobian] at ranked
    refine ⟨outcome, diagnosis, _, done, converged, diagnosed, redundant, ranked, ?_⟩
    have small := not_lt.mpr Loop.second_le
    have extent := Matrix.extent_pos [[1, 0], [1, -1]] 2
    rw [rank, jacobian, Loop.left_eq]
    refine Nat.lt_succ_of_le (not_lt.mp (mt (Matrix.lt_above_iff ?_).mp small))
    rw [tolerance]
    positivity

end PlaneSketch
