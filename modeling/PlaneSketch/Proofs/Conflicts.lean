import Mathlib
import PlaneSketch.Proofs.Agreement
import PlaneSketch.Proofs.Damping
import PlaneSketch.Proofs.Diagnosis
import PlaneSketch.Proofs.Unanchored

/-!
What a system that has not converged is blamed on.

Convergence asks for numbers strictly below the tolerance, while a residual is blamed when it is
above the tolerance. What is equal to it, or no number, keeps a system from converging and is not
blamed, unless nothing is free.

* `blames_of_unconverged`: the constraints of residuals above the tolerance are in conflict; without
  free variables those of all residuals are.
* `exists_unblamed`: a residual that equals the tolerance, or is undefined, and no conflict.
-/

namespace PlaneSketch

variable {α : Type} [Scalar α]

/-! ### Rows without entries -/

section Empty

variable {bound : α}

/-- Nothing is left of a row without entries, and nothing is within every bound. -/
theorem mem_dependentFrom_of_empty (laws : Scalar.Laws α) (positive : Ordered.lt 0 bound = true)
    {rows : Matrix α} (empty : ∀ row ∈ rows, row = []) {position i : Nat} (early : position ≤ i)
    (late : i < position + rows.length) : i ∈ Rank.dependentFrom bound [] position rows := by
  induction rows generalizing position with
  | nil =>
    rw [List.length_nil] at late
    omega
  | cons row rows ih =>
    obtain ⟨rfl, rest⟩ := List.forall_mem_cons.mp empty
    have short : Ordered.le (Vector.norm (Rank.remainder [] ([] : List α))) bound = true :=
      laws.sqrt_zero_le positive
    rw [Rank.dependentFrom, if_pos short]
    rcases Nat.eq_or_lt_of_le early with rfl | later
    · exact List.mem_cons_self
    · rw [List.length_cons] at late
      exact List.mem_cons_of_mem _ (ih rest later (by omega))

omit [Scalar α] in
theorem Matrix.size_of_empty {rows : Matrix α} (empty : ∀ row ∈ rows, row = []) :
    rows.size = 0 := by
  induction rows with
  | nil => rfl
  | cons row rows ih =>
    obtain ⟨rfl, rest⟩ := List.forall_mem_cons.mp empty
    have rest := ih rest
    rw [size] at rest
    rw [size, List.map_cons, total_cons, rest]
    rfl

end Empty

/-! ### Who is blamed -/

section Blame

variable {methods : Methods α} {options : Options α} {pool : Pool α} {system : Equations α}
  {outcome : Outcome α} {diagnosis : Diagnosis} {c : Handle}

theorem Diagnosis.mem_violated_iff {residuals : List α} {row : Nat} :
    row ∈ violated options residuals ↔
      ∃ r, residuals[row]? = some r ∧ Ordered.lt options.tolerance (Scalar.abs r) = true := by
  rw [violated, List.mem_map]
  constructor
  · rintro ⟨⟨r, _⟩, listed, rfl⟩
    obtain ⟨listed, above⟩ := List.mem_filter.mp listed
    exact ⟨r, List.mem_zipIdx_iff_getElem?.mp listed, above⟩
  · rintro ⟨r, placed, above⟩
    exact ⟨(r, row), List.mem_filter.mpr ⟨List.mem_zipIdx_iff_getElem?.mpr placed, above⟩, rfl⟩

/-- The owner of a violated or dependent row is in conflict. -/
theorem Diagnosis.mem_conflicts {residuals : List α} {dependent : List Nat} {row : Nat}
    (owned : rowConstraint? system row = some c)
    (blamed : row ∈ violated options residuals ∨ row ∈ dependent) :
    c ∈ conflicts options pool system residuals dependent := by
  rw [conflicts, mem_firstOccurrences]
  refine List.mem_append_left _ (List.mem_filterMap.mpr ⟨row, ?_, owned⟩)
  refine List.mem_filter.mpr ⟨List.mem_range.mpr (system.lt_rows_of_owned owned), ?_⟩
  simpa using blamed

/-- **Every row of a pinned system is blamed**: it has no entries. -/
theorem mem_dependent_of_pinned (laws : Scalar.Laws α)
    (positive : Ordered.lt 0 options.rankTolerance = true) (pinned : system.free = [])
    {x : List α} (evaluated : outcome.jacobian = system.jacobian x)
    (tells : diagnosis.Tells methods options pool system outcome) {row : Nat}
    (inside : row < system.rows) : row ∈ diagnosis.dependent := by
  have empty : ∀ row ∈ outcome.jacobian, row = [] := by
    intro row listed
    rw [evaluated] at listed
    have long := Equations.length_of_mem_jacobian listed
    rwa [pinned, List.length_nil, List.length_eq_zero_iff] at long
  -- without entries the rank is zero, and the bound is the tolerance itself
  have size := Matrix.size_of_empty empty
  have zero : diagnosis.rank = 0 := by
    have ranked := tells.ranked
    rw [Rank.numeric?, if_pos size] at ranked
    exact (Option.some.inj ranked).symm
  have found : Rank.threshold? methods outcome.jacobian options.rankTolerance =
      some options.rankTolerance := by
    rw [Rank.threshold?, if_pos size]
  have blamed := tells.blamed
  rw [Diagnosis.blamed_of_lt (zero ▸ Nat.zero_lt_of_lt inside) found] at blamed
  rw [← Except.ok.inj blamed]
  refine mem_dependentFrom_of_empty laws positive empty (Nat.zero_le row) ?_
  rwa [evaluated, system.length_jacobian, Nat.zero_add]

/-- **An outcome that has not converged has a residual that kept it from that.** -/
theorem exists_offending (laws : Scalar.Laws α)
    (positive : Ordered.lt 0 options.tolerance = true) {x : List α} {steps : Nat}
    (unconverged : (system.outcomeAt options x steps).converged = false) :
    ∃ block ∈ system.blocks, ∃ r ∈ block.residual (system.valuation x),
      Scalar.isFinite r = false ∨ Ordered.lt (Scalar.abs r) Scalar.residualCeiling = false ∨
        Ordered.lt (Scalar.abs r) options.tolerance = false := by
  by_contra fine
  push Not at fine
  have each : ∀ r ∈ system.residuals x, Scalar.isFinite r = true ∧
      Ordered.lt (Scalar.abs r) Scalar.residualCeiling = true ∧
        Ordered.lt (Scalar.abs r) options.tolerance = true := by
    intro r listed
    obtain ⟨block, member, listed⟩ := List.mem_flatMap.mp listed
    simpa using fine block member r listed
  have finite : (system.residuals x).all Scalar.isFinite = true :=
    List.all_eq_true.mpr fun r listed => (each r listed).1
  have usable := laws.maxAbs_lt laws.ceiling_pos fun r listed => (each r listed).2.1
  have below := laws.maxAbs_lt positive fun r listed => (each r listed).2.2
  simp [Equations.outcomeAt, Vector.isUsable, finite, usable, below] at unconverged

end Blame

section Unconverged

variable {methods : Methods α} {settings options : Options α} {pool : Pool α} {system : Equations α}
  {pull : Option (Pull α)} {x : List α} {outcome : Outcome α} {diagnosis : Diagnosis}

theorem Options.tolerance_pos {ν : Type} [Ordered ν] {options : Options ν}
    (usable : options.isUsable = true) : Ordered.lt 0 options.tolerance = true := by
  by_contra below
  simp [isUsable, problems, demand, below] at usable

/-- A residual can be evaluated and is on one side of the tolerance. -/
def Options.Decides (options : Options α) (r : α) : Prop :=
  Scalar.isFinite r = true ∧ Ordered.lt (Scalar.abs r) Scalar.residualCeiling = true ∧
    (Ordered.lt (Scalar.abs r) options.tolerance = true ∨
      Ordered.lt options.tolerance (Scalar.abs r) = true)

/-- A worst residual is above the tolerance when any is. -/
theorem lt_worst (laws : Scalar.Laws α) {r s : α} (decides : options.Decides r)
    (above : Ordered.lt options.tolerance (Scalar.abs s) = true)
    (worst : Ordered.lt (Scalar.abs r) (Scalar.abs s) = false) :
    Ordered.lt options.tolerance (Scalar.abs r) = true := by
  obtain ⟨-, -, below | above'⟩ := decides
  · rw [laws.lt_trans below above] at worst
    cases worst
  · exact above'

/-- **Residuals above the tolerance are blamed**, and all residuals when nothing is free. Some
residual always kept the system from converging; when each is on one side of the tolerance, one is
above it, and a worst one is blamed. -/
theorem blames_of_unconverged (laws : Scalar.Laws α) (usable : options.isUsable = true)
    (same : settings.tolerance = options.tolerance)
    (done : (system.solve methods settings pull x).outcome = .ok outcome)
    (unconverged : outcome.converged = false)
    (diagnosed : diagnose methods options pool system outcome = .ok diagnosis) :
    (∀ block ∈ system.blocks, ∀ c, block.owner.constraint? = some c →
      ∀ r ∈ block.residual (system.valuation outcome.x),
        Ordered.lt options.tolerance (Scalar.abs r) = true ∨ system.free = [] →
          c ∈ diagnosis.conflicting) ∧
    (∃ block ∈ system.blocks, ∃ r ∈ block.residual (system.valuation outcome.x),
      Scalar.isFinite r = false ∨ Ordered.lt (Scalar.abs r) Scalar.residualCeiling = false ∨
        Ordered.lt (Scalar.abs r) options.tolerance = false) ∧
    ((∀ r ∈ system.residuals outcome.x, options.Decides r) →
      ∀ block ∈ system.blocks, ∀ c, block.owner.constraint? = some c →
        ∀ r ∈ block.residual (system.valuation outcome.x),
          (∀ s ∈ system.residuals outcome.x, Ordered.lt (Scalar.abs r) (Scalar.abs s) = false) →
            c ∈ diagnosis.conflicting) := by
  obtain ⟨y, steps, -, rfl⟩ := Equations.outcome_of_solve done
  have tells := tells_of_diagnose diagnosed
  have blames : ∀ block ∈ system.blocks, ∀ c, block.owner.constraint? = some c →
      ∀ r ∈ block.residual (system.valuation y),
        Ordered.lt options.tolerance (Scalar.abs r) = true ∨ system.free = [] →
          c ∈ diagnosis.conflicting := by
    intro block member c owned r listed reason
    obtain ⟨row, placed, owner⟩ := Equations.exists_row member listed
    rw [owned] at owner
    rw [tells.conflicting, if_neg (Bool.eq_false_iff.mp unconverged)]
    refine Diagnosis.mem_conflicts owner ?_
    rcases reason with above | pinned
    · exact .inl (Diagnosis.mem_violated_iff.mpr ⟨r, placed, above⟩)
    · exact .inr (mem_dependent_of_pinned laws (Options.rankTolerance_pos usable) pinned rfl tells
        (system.lt_rows_of_owned owner))
  have offending := exists_offending laws (same ▸ Options.tolerance_pos usable) unconverged
  rw [same] at offending
  refine ⟨blames, offending, fun decides block member c owned r listed worst => ?_⟩
  obtain ⟨other, member', s, listed', reason⟩ := offending
  have inside : r ∈ system.residuals y := List.mem_flatMap.mpr ⟨block, member, listed⟩
  have inside' : s ∈ system.residuals y := List.mem_flatMap.mpr ⟨other, member', listed'⟩
  -- what kept the system from converging is above the tolerance, and the worst is no less
  have above : Ordered.lt options.tolerance (Scalar.abs s) = true := by
    obtain ⟨finite, small, sides⟩ := decides s inside'
    rcases reason with infinite | large | high
    · cases finite.symm.trans infinite
    · cases small.symm.trans large
    · exact sides.resolve_left (Bool.eq_false_iff.mp high)
  exact blames block member c owned r listed (.inl (lt_worst laws (decides r inside) above
    (worst s inside')))

end Unconverged

/-! ### A circle that is left as it is -/

namespace Ring

variable {methods : Methods α} {options : Options α} {size r : α}

/-- Without steps a circle keeps its radius. -/
theorem solve_still (methods : Methods α) (size r : α) (still : options.maxIterations = 0) :
    ((system size).solve methods options none [r]).outcome =
      .ok ((system size).outcomeAt options [r] 0) := by
  have ends : Descent.hard methods options (system size) [r] = ⟨[r], 0, [], none⟩ := by
    rw [Descent.hard, still]
    rfl
  have nothing : ¬((system size).free.isEmpty || (system size).rows = 0) = true := by
    simp [system, Equations.rows, Block.rows, Relation.rows]
  rw [Equations.solve, if_neg nothing]
  simp only [Equations.conclude, ends]

theorem jacobian_eq (size r : α) : (system size).jacobian [r] = [[0 + 1]] := by
  simp [system, Equations.jacobian, Block.jacobian, Relation.gradient, Relation.slots,
    Radius.gradient, Radius.slots, Block.partialBy]

/-- The only row is independent. -/
theorem exists_diagnosed (size r : α)
    (ranked : Rank.numeric? methods [[(0 : α) + 1]] options.rankTolerance = some 1) :
    ∃ diagnosis, diagnose methods options .empty (system size)
      ((system size).outcomeAt options [r] 0) = .ok diagnosis ∧ diagnosis.dependent = [] := by
  have jacobian : ((system size).outcomeAt options [r] 0).jacobian = [[0 + 1]] := jacobian_eq size r
  rw [← jacobian] at ranked
  have blamed : Diagnosis.blamed methods options (system size)
      ((system size).outcomeAt options [r] 0).jacobian 1 = .ok [] := rfl
  obtain ⟨diagnosis, diagnosed, -, dependent⟩ := exists_diagnose ranked blamed
  exact ⟨diagnosis, diagnosed, dependent⟩

/-- A residual that is not above the tolerance is not blamed. -/
theorem conflicting_eq_nil {diagnosis : Diagnosis}
    (unconverged : ((system size).outcomeAt options [r] 0).converged = false)
    (diagnosed : diagnose methods options .empty (system size)
      ((system size).outcomeAt options [r] 0) = .ok diagnosis)
    (independent : diagnosis.dependent = [])
    (level : Ordered.lt options.tolerance (Scalar.abs (r - size)) = false) :
    diagnosis.conflicting = [] := by
  have residuals : ((system size).outcomeAt options [r] 0).residuals = [r - size] :=
    residuals_eq size r
  have violated : Diagnosis.violated options [r - size] = [] := by
    simp [Diagnosis.violated, level]
  rw [(tells_of_diagnose diagnosed).conflicting, if_neg (Bool.eq_false_iff.mp unconverged),
    independent, residuals, Diagnosis.conflicts, violated]
  rfl

theorem unconverged {options : Options ℝ} {size r : ℝ} (above : options.tolerance ≤ |r - size|) :
    ((system size).outcomeAt options [r] 0).converged = false := by
  rw [Bool.eq_false_iff]
  intro converged
  have listed : r - size ∈ (system size).residuals [r] := List.mem_singleton_self _
  exact absurd (Equations.abs_lt_of_converged converged listed) above.not_gt

theorem ranked : Rank.numeric? Methods.spectral [[(0 : ℝ) + 1]] Options.real.rankTolerance =
    some 1 := by
  have shape : ∀ row ∈ ([[0 + 1]] : Matrix ℝ), row.length = 1 := by simp
  have length (x : EuclideanSpace ℝ (Fin 1)) : ‖Matrix.linearMap [[0 + 1]] 1 x‖ = ‖x‖ := by
    refine (sq_eq_sq₀ (norm_nonneg _) (norm_nonneg _)).mp ?_
    rw [Matrix.norm_linearMap_sq, EuclideanSpace.real_norm_sq_eq]
    simp [EuclideanSpace.inner_eq_star_dotProduct, rowVector, dotProduct]
  have extent : Matrix.extent [[0 + 1]] 1 = 1 := by
    refine max_eq_left (Spectrum.singularValues_le _ zero_le_one (W := ⊤) (fun x _ => ?_) (by simp))
    rw [length, one_mul]
  rw [Rank.numeric?_eq Methods.exactValues_spectral shape, extent, Options.rankTolerance_real,
    Matrix.above_eq_width (by norm_num) fun x nonzero => ?_]
  rw [length]
  exact mul_lt_of_lt_one_left (norm_pos_iff.mpr nonzero) (by norm_num)

end Ring

/-- The standard settings without any step. -/
noncomputable def Options.still : Options ℝ := { Options.real with maxIterations := 0 }

theorem Options.isUsable_still : Options.still.isUsable = true := by
  norm_num [isUsable, problems, demand, still, real, standard, Scalar.ofDecimal]

theorem blames_of_unconverged_ring : ∃ outcome diagnosis,
    ((Ring.system 1).solve Methods.spectral Options.still none [0]).outcome = .ok outcome ∧
    outcome.converged = false ∧
    diagnose Methods.spectral Options.still .empty (Ring.system 1) outcome = .ok diagnosis ∧
    ⟨0, 0⟩ ∈ diagnosis.conflicting := by
  have still : Options.still.maxIterations = 0 := rfl
  have done := Ring.solve_still Methods.spectral 1 0 still
  have tolerance : Options.still.tolerance = 1 / 10 ^ 9 := by
    norm_num [Options.still, Options.real, Options.standard, Scalar.ofDecimal]
  have off : |(0 : ℝ) - 1| = 1 := by norm_num
  have unconverged : ((Ring.system 1).outcomeAt Options.still [0] 0).converged = false :=
    Ring.unconverged (by rw [off, tolerance]; norm_num)
  have ranked : Rank.numeric? Methods.spectral [[(0 : ℝ) + 1]] Options.still.rankTolerance =
    some 1 := Ring.ranked
  obtain ⟨diagnosis, diagnosed, -⟩ := Ring.exists_diagnosed 1 0 ranked
  obtain ⟨blames, -, -⟩ := blames_of_unconverged Scalar.laws_real Options.isUsable_still rfl done
    unconverged diagnosed
  refine ⟨_, diagnosis, done, unconverged, diagnosed, ?_⟩
  refine blames _ List.mem_cons_self ⟨0, 0⟩ rfl (0 - 1) (List.mem_singleton_self _) (.inl ?_)
  rw [Ordered.lt_real, tolerance]
  show _ < |(0 : ℝ) - 1|
  rw [off]
  norm_num

/-! ### Residuals that are not blamed -/

/-- Without having converged, a constraint has a residual that is not below the tolerance, and
nothing is in conflict. -/
def Equations.Unblamed (methods : Methods α) (options : Options α) (system : Equations α)
    (x : List α) (h : Handle) : Prop :=
  ∃ outcome diagnosis, (system.solve methods options none x).outcome = .ok outcome ∧
    outcome.converged = false ∧ diagnose methods options .empty system outcome = .ok diagnosis ∧
    (∃ block ∈ system.blocks, block.owner.constraint? = some h ∧
      ∃ r ∈ block.residual (system.valuation outcome.x),
        Ordered.lt (Scalar.abs r) options.tolerance = false) ∧
    diagnosis.conflicting = []

theorem Ring.unblamed {methods : Methods α} {options : Options α} {size r : α}
    (still : options.maxIterations = 0)
    (ranked : Rank.numeric? methods [[(0 : α) + 1]] options.rankTolerance = some 1)
    (unconverged : ((system size).outcomeAt options [r] 0).converged = false)
    (above : Ordered.lt (Scalar.abs (r - size)) options.tolerance = false)
    (level : Ordered.lt options.tolerance (Scalar.abs (r - size)) = false) :
    (system size).Unblamed methods options [r] ⟨0, 0⟩ := by
  obtain ⟨diagnosis, diagnosed, independent⟩ := exists_diagnosed size r ranked
  exact ⟨_, diagnosis, solve_still methods size r still, unconverged, diagnosed,
    ⟨_, List.mem_cons_self, rfl, _, List.mem_singleton_self _, above⟩,
    conflicting_eq_nil unconverged diagnosed independent level⟩

/-- A radius of two where one is asked for, and a tolerance of one. -/
noncomputable def Options.level : Options ℝ := { Options.still with tolerance := 1 }

/-- The same steps always, and the singular value of a matrix that holds a one only. -/
noncomputable def Ring.single : Methods PartialReal :=
  { Ring.unmoved (.of 1) with singularValues? := fun _ => some [.of 1] }

/-- **What is not above the tolerance is not blamed**, neither a residual that equals it nor one
that is undefined. -/
theorem exists_unblamed :
    (Ring.system (1 : ℝ)).Unblamed Methods.spectral Options.level [Scalar.two] ⟨0, 0⟩ ∧
    (Ring.system PartialReal.undefined).Unblamed Ring.single
      { PartialReal.options with maxIterations := 0 } [.of 1] ⟨0, 0⟩ := by
  have tolerance : Options.level.tolerance = 1 := rfl
  have off : Scalar.abs ((Scalar.two : ℝ) - 1) = 1 := by
    rw [Scalar.two_real]
    show |(2 : ℝ) - 1| = 1
    norm_num
  refine ⟨Ring.unblamed rfl Ring.ranked (Ring.unconverged off.ge) ?_ ?_,
    Ring.unblamed rfl ?_ ?_ rfl rfl⟩
  · rw [off, tolerance, Bool.eq_false_iff]
    simp
  · rw [off, tolerance, Bool.eq_false_iff]
    simp
  · have values : Ring.single.singularValues? [[(0 : PartialReal) + 1]] = some [.of 1] := rfl
    have same : Ordered.lt (1 : PartialReal) (.of 1) = false :=
      Bool.eq_false_iff.mpr (mt PartialReal.lt_of.mp (lt_irrefl 1))
    have bound : PartialReal.options.rankTolerance * 1 = .of ((1 : ℕ) * 10 ^ (-8 : ℤ) * 1) := rfl
    have small : Ordered.lt (PartialReal.of ((1 : ℕ) * 10 ^ (-8 : ℤ) * 1)) (.of 1) = true :=
      PartialReal.lt_of.mpr (by norm_num)
    rw [Rank.numeric?, if_neg (by simp [Matrix.size]), values]
    simp only [Scalar.raise, List.headD_cons, same, Bool.false_eq_true, if_false, Option.map_some,
      bound, List.countP_singleton, small, if_true]
  · rfl

end PlaneSketch
