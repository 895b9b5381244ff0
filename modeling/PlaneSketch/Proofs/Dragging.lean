import Mathlib
import PlaneSketch.Proofs.Derivative
import PlaneSketch.Proofs.LeastSquares
import PlaneSketch.Proofs.Success

/-!
What a drag does to the equations of an island.

A descent never raises the sum of squares that it starts with. A drag first moves what it pulls to
the target, so that the descent starts there.

* `cost_run_le`: a descent ends no higher than it started, whatever the least-squares method does.
* `residuals_recenter`: where a pull has moved its columns, nothing is left to pull.
* `exists_outcome_cost_le`: a solve leaves the equations no worse than they are where it sets out,
  which with a pull is at the target.
* `exists_outcome_of_stationary`: it stays there when no step improves them to first order.

So a drag may leave the equations worse than they were before: `exists_unconverged_by_drag` drops
the tip of an arm on its pivot.
-/

namespace PlaneSketch

/-! ### Descending -/

namespace Descent

variable {methods : Methods ℝ} {options : Options ℝ} {problem : Problem ℝ} {p : Position ℝ}
  {width : Nat}

/-- Residuals and cost are those of the problem at the position. -/
structure Position.Evaluates (p : Position ℝ) (problem : Problem ℝ) : Prop where
  residuals : p.residuals = problem.residuals p.x
  cost : p.cost = Descent.cost p.residuals

theorem evaluates_start (problem : Problem ℝ) (damping : ℝ) (x : List ℝ) :
    (start problem damping x).Evaluates problem :=
  ⟨rfl, rfl⟩

theorem cost_lt_of_improves {residuals : List ℝ} {present : ℝ}
    (improves : improves (cost? residuals) present = true) :
    cost? residuals = some (cost residuals) ∧ cost residuals < present := by
  rw [cost?] at improves ⊢
  split at improves
  · rename_i usable
    exact ⟨if_pos usable, Ordered.lt_real.mp improves⟩
  · cases improves

/-- **One step of a descent**: it ends where it is, for want of a step or not, or it goes on from a
position that is no worse. -/
theorem run_succ (methods : Methods ℝ) (options : Options ℝ) (target : Option ℝ)
    (budget taken : Nat) (evaluates : p.Evaluates problem) :
    ((run methods options problem target (budget + 1) taken p).x = p.x ∧
      ((run methods options problem target (budget + 1) taken p).failure = none ∨
        step? methods problem p = none)) ∨
    ∃ next : Position ℝ, next.Evaluates problem ∧ next.cost ≤ p.cost ∧ next.x.length = p.x.length ∧
      (run methods options problem target (budget + 1) taken p).x =
        (run methods options problem target budget (taken + 1) next).x ∧
      (run methods options problem target (budget + 1) taken p).failure =
        (run methods options problem target budget (taken + 1) next).failure := by
  rw [run]
  split
  · exact .inl ⟨rfl, .inl rfl⟩
  · cases stepped : step? methods problem p with
    | none => exact .inl ⟨rfl, .inr rfl⟩
    | some delta =>
      dsimp only
      split
      · exact .inl ⟨rfl, .inl rfl⟩
      · split
        · rename_i lower
          obtain ⟨candidate, less⟩ := cost_lt_of_improves lower
          refine .inr ⟨_, ⟨rfl, ?_⟩, ?_, ?_, rfl, rfl⟩
          · rw [candidate]
            rfl
          · rw [candidate]
            exact less.le
          · rw [Vector.length_add, length_step stepped, Nat.min_self]
        · split
          · exact .inl ⟨rfl, .inl rfl⟩
          · exact .inr ⟨{ p with damping := p.damping * options.dampingUp },
              ⟨evaluates.residuals, evaluates.cost⟩, le_rfl, rfl, rfl, rfl⟩

/-- **A descent ends no higher than it started**, whatever the least-squares method does. -/
theorem cost_run_le (target : Option ℝ) (budget taken : Nat) (evaluates : p.Evaluates problem) :
    cost (problem.residuals (run methods options problem target budget taken p).x) ≤ p.cost := by
  induction budget generalizing taken p with
  | zero => rw [run, evaluates.cost, evaluates.residuals]
  | succ budget ih =>
    rcases run_succ methods options target budget taken evaluates with
      ⟨ends, -⟩ | ⟨next, evaluates', lower, -, goes, -⟩
    · rw [ends, evaluates.cost, evaluates.residuals]
    · rw [goes]
      exact (ih (taken + 1) evaluates').trans lower

/-- At every position of the width, the Jacobian has a row for each residual and a column for each
entry. -/
structure Problem.Shaped (problem : Problem ℝ) (width : Nat) : Prop where
  rows : ∀ x, x.length = width → (problem.jacobian x).length = (problem.residuals x).length
  columns : ∀ x, x.length = width → ∀ row ∈ problem.jacobian x, row.length = width

/-- How far a step from a position is off: by the linearised equations, and by its own length. -/
noncomputable def Problem.stepMisfit (problem : Problem ℝ) (p : Position ℝ) (e : List ℝ) : ℝ :=
  let equations := stepSystem (problem.jacobian p.x) p.residuals p.damping p.x.length
  misfit equations.1 equations.2 e

/-- An exact method finds a step that is least off. -/
theorem exists_step (exact : methods.Exact) (shaped : problem.Shaped width)
    (evaluates : p.Evaluates problem) (wide : p.x.length = width) :
    ∃ delta, step? methods problem p = some delta ∧
      ∀ e, e.length = p.x.length → problem.stepMisfit p delta ≤ problem.stepMisfit p e := by
  refine exact p.x.length _ _ ?_ ?_
  · intro row listed
    rcases List.mem_append.mp listed with linear | penalty
    · exact (shaped.columns _ wide row linear).trans wide.symm
    · obtain ⟨i, -, rfl⟩ := List.mem_map.mp penalty
      simp [Vector.unit]
  · simp [shaped.rows _ wide, evaluates.residuals]

/-- With an exact method a descent is never cut short. -/
theorem failure_run (exact : methods.Exact) (shaped : problem.Shaped width) (target : Option ℝ)
    (budget taken : Nat) (evaluates : p.Evaluates problem) (wide : p.x.length = width) :
    (run methods options problem target budget taken p).failure = none := by
  induction budget generalizing taken p with
  | zero => rfl
  | succ budget ih =>
    rcases run_succ methods options target budget taken evaluates with
      ⟨-, fine | stuck⟩ | ⟨next, evaluates', -, same, -, goes⟩
    · exact fine
    · obtain ⟨delta, stepped, -⟩ := exists_step exact shaped evaluates wide
      rw [stuck] at stepped
      cases stepped
    · rw [goes]
      exact ih (taken + 1) evaluates' (same.trans wide)

/-- To first order, no step lowers the sum of squares. -/
def Problem.Stationary (problem : Problem ℝ) (x : List ℝ) : Prop :=
  ∀ e : List ℝ, e.length = x.length →
    Vector.dot ((problem.jacobian x).map (Vector.dot · e)) (problem.residuals x) = 0

/-- From a stationary position, the mixed terms of the misfit vanish. -/
theorem stepMisfit_of_stationary (shaped : problem.Shaped width)
    (evaluates : p.Evaluates problem) (wide : p.x.length = width) (positive : 0 < p.damping)
    (stationary : problem.Stationary p.x) {e : List ℝ} (long : e.length = p.x.length) :
    problem.stepMisfit p e =
      cost ((problem.jacobian p.x).map (Vector.dot · e)) + cost p.residuals +
        p.damping * cost e := by
  have sides : (problem.jacobian p.x).length = p.residuals.length :=
    (shaped.rows _ wide).trans (congrArg List.length evaluates.residuals.symm)
  have flat := stationary e long
  rw [← evaluates.residuals] at flat
  rw [Problem.stepMisfit, ← long, misfit_stepSystem positive.le sides, cost_add (by simp [sides]),
    flat]
  ring

/-- An exact method finds no step from a stationary position. -/
theorem step_of_stationary (exact : methods.Exact) (shaped : problem.Shaped width)
    (evaluates : p.Evaluates problem) (wide : p.x.length = width) (positive : 0 < p.damping)
    (stationary : problem.Stationary p.x) :
    ∃ delta, step? methods problem p = some delta ∧ ∀ d ∈ delta, d = 0 := by
  obtain ⟨delta, stepped, least⟩ := exists_step exact shaped evaluates wide
  refine ⟨delta, stepped, cost_eq_zero_iff.mp ?_⟩
  let rest : List ℝ := List.replicate p.x.length 0
  have still : cost ((problem.jacobian p.x).map (Vector.dot · rest)) = 0 := by
    refine cost_eq_zero_iff.mpr fun r listed => ?_
    obtain ⟨row, -, rfl⟩ := List.mem_map.mp listed
    exact Vector.dot_replicate_zero row _
  have unmoved : cost rest = 0 :=
    cost_eq_zero_iff.mpr fun d listed => List.eq_of_mem_replicate listed
  have below := least rest List.length_replicate
  rw [stepMisfit_of_stationary shaped evaluates wide positive stationary (length_step stepped),
    stepMisfit_of_stationary shaped evaluates wide positive stationary List.length_replicate,
    still, unmoved] at below
  have linear := cost_nonneg ((problem.jacobian p.x).map (Vector.dot · delta))
  have nothing : p.damping * cost delta ≤ 0 := by linarith
  exact le_antisymm (nonpos_of_mul_nonpos_right nothing positive) (cost_nonneg delta)

/-- **A descent from a stationary position stays there.** -/
theorem run_of_stationary (exact : methods.Exact) (shaped : problem.Shaped width)
    (target : Option ℝ) (budget taken : Nat) (evaluates : p.Evaluates problem)
    (wide : p.x.length = width) (positive : 0 < p.damping) (tolerant : 0 ≤ options.stepTolerance)
    (stationary : problem.Stationary p.x) :
    (run methods options problem target budget taken p).x = p.x := by
  cases budget with
  | zero => rfl
  | succ budget =>
    obtain ⟨delta, stepped, zero⟩ :=
      step_of_stationary exact shaped evaluates wide positive stationary
    have short : Vector.norm delta = 0 := by
      rw [Vector.norm, dot_self_eq_cost, cost_eq_zero_iff.mpr zero]
      exact Real.sqrt_zero
    have tooShort : isTooShort options p.x (Vector.norm delta) = true := by
      rw [short, isTooShort, Bool.or_eq_true, Ordered.le_real]
      exact .inr (mul_nonneg tolerant (add_nonneg zero_le_one (Real.sqrt_nonneg _)))
    rw [run, stepped]
    dsimp only
    rw [if_pos tooShort]
    split <;> rfl

theorem shaped_hard (system : Equations ℝ) : (Problem.hard system).Shaped system.free.length :=
  ⟨fun x _ => (system.shape_jacobian x).1, fun x _ => (system.shape_jacobian x).2⟩

theorem shaped_pulled (system : Equations ℝ) (pull : Pull ℝ) :
    (Problem.pulled system pull).Shaped system.free.length := by
  refine ⟨fun x wide => ?_, fun x wide row listed => ?_⟩
  · simp [Problem.pulled, (system.shape_jacobian x).1, Pull.jacobian, Pull.residuals]
  · rcases List.mem_append.mp listed with hard | soft
    · exact (system.shape_jacobian x).2 row hard
    · obtain ⟨columns, -, rfl⟩ := List.mem_map.mp soft
      simp [wide]

end Descent

/-! ### Moving to the target -/

namespace Pull

variable {columns others : List Nat} {amount : ℝ} {x : List ℝ} {i width : Nat}

/-- The columns are some entries of a vector of this width, and none is pulled both ways. -/
structure Fits (pull : Pull ℝ) (width : Nat) : Prop where
  x_ne_nil : pull.xColumns ≠ []
  y_ne_nil : pull.yColumns ≠ []
  x_inside : ∀ i ∈ pull.xColumns, i < width
  y_inside : ∀ i ∈ pull.yColumns, i < width
  apart : pull.xColumns.Disjoint pull.yColumns

theorem length_shift (columns : List Nat) (amount : ℝ) (x : List ℝ) :
    (shift columns amount x).length = x.length := by
  simp [shift]

theorem getD_shift (inside : i < x.length) :
    (shift columns amount x).getD i 0 =
      if i ∈ columns then x.getD i 0 + amount else x.getD i 0 := by
  simp [shift, inside]

/-- The mean of columns that are shifted goes along. -/
theorem meanAt_shift (listed : columns ≠ []) (inside : ∀ i ∈ columns, i < x.length) :
    meanAt columns (shift columns amount x) = meanAt columns x + amount := by
  have moved : columns.map (fun i => (shift columns amount x).getD i 0) =
      columns.map fun i => x.getD i 0 + amount :=
    List.map_congr_left fun i column => by rw [getD_shift (inside i column), if_pos column]
  have count : (columns.length : ℝ) ≠ 0 := by simpa using listed
  rw [meanAt, meanAt, moved, Vector.mean, Vector.mean, Vector.sum_real, Vector.sum_real,
    List.sum_map_add, List.map_const', List.sum_replicate, List.length_map, List.length_map,
    Scalar.ofNat_real, nsmul_eq_mul]
  field_simp

/-- The mean of other columns stays. -/
theorem meanAt_shift_of_disjoint (apart : columns.Disjoint others)
    (inside : ∀ i ∈ columns, i < x.length) :
    meanAt columns (shift others amount x) = meanAt columns x := by
  rw [meanAt, meanAt]
  congr 1
  exact List.map_congr_left fun i column => by
    rw [getD_shift (inside i column), if_neg (apart column)]

/-- **Where a pull moves its columns, nothing is left to pull.** -/
theorem residuals_recenter {pull : Pull ℝ} (fits : pull.Fits x.length) :
    pull.residuals (pull.recenter x) = [0, 0] := by
  have moved : (shift pull.xColumns (pull.target.x - meanAt pull.xColumns x) x).length =
      x.length := length_shift _ _ _
  have meanX : meanAt pull.xColumns (pull.recenter x) = pull.target.x := by
    rw [recenter, meanAt_shift_of_disjoint fits.apart (moved ▸ fits.x_inside),
      meanAt_shift fits.x_ne_nil fits.x_inside, add_sub_cancel]
  have meanY : meanAt pull.yColumns (pull.recenter x) = pull.target.y := by
    rw [recenter, meanAt_shift fits.y_ne_nil (moved ▸ fits.y_inside),
      meanAt_shift_of_disjoint fits.apart.symm fits.y_inside, add_sub_cancel]
  rw [residuals, meanX, meanY, sub_self, sub_self, mul_zero]

end Pull

namespace Equations

variable {system : Equations ℝ} {methods : Methods ℝ} {options : Options ℝ} {x : List ℝ}

theorem get_column {v : Variable} {i : Nat} (found : system.column? v = some i) :
    ∃ inside : i < system.free.length, system.free[i] = v := by
  obtain ⟨inside, same, -⟩ := List.findIdx?_eq_some_iff_getElem.mp found
  exact ⟨inside, by simpa using same⟩

/-- The pull of anchors in a system fits its positions. -/
theorem fits_of_pull? {anchors : List Handle} {target : Vec2 ℝ} {weight : ℝ} {pull : Pull ℝ}
    (pulled : system.pull? anchors target weight = some pull) :
    pull.Fits system.free.length := by
  rw [pull?] at pulled
  split at pulled
  · cases pulled
  · rename_i both
    cases pulled
    simp only [Bool.or_eq_true, List.isEmpty_iff, not_or] at both
    refine ⟨both.1, both.2, ?_, ?_, ?_⟩
    · intro i listed
      obtain ⟨h, -, found⟩ := List.mem_filterMap.mp listed
      exact (get_column found).1
    · intro i listed
      obtain ⟨h, -, found⟩ := List.mem_filterMap.mp listed
      exact (get_column found).1
    · intro i listed listed'
      obtain ⟨h, -, found⟩ := List.mem_filterMap.mp listed
      obtain ⟨h', -, found'⟩ := List.mem_filterMap.mp listed'
      -- one column is that of one variable
      have same := (get_column found).2.symm.trans (get_column found').2
      cases same

/-- Where a solve sets out: a pull has moved its columns to the target. -/
noncomputable def setOut (pull : Option (Pull ℝ)) (x : List ℝ) : List ℝ :=
  match pull with
  | none => x
  | some pull => pull.recenter x

/-- Where the descent on the hard equations starts: a pull is descended on before. -/
noncomputable def handOver (methods : Methods ℝ) (options : Options ℝ) (system : Equations ℝ)
    (pull : Option (Pull ℝ)) (x : List ℝ) : List ℝ :=
  match pull with
  | none => x
  | some pull => (Descent.pulled methods options system pull x).x

theorem outcome_of_conclude_hard (exact : methods.Exact) (wide : x.length = system.free.length)
    (before : Nat) (events : List (Descent.Event ℝ)) :
    (system.conclude options before events (Descent.hard methods options system x)).outcome =
      .ok (system.outcomeAt options (Descent.hard methods options system x).x
        (before + (Descent.hard methods options system x).steps)) := by
  have unbroken : (Descent.hard methods options system x).failure = none :=
    Descent.failure_run exact (Descent.shaped_hard system) _ _ _
      (Descent.evaluates_start _ _ _) wide
  rw [conclude, unbroken]

/-- **With an exact method a solve always has an outcome**, where it sets out when there is nothing
to solve, and else where the descent on the hard equations ends. -/
theorem exists_outcome (options : Options ℝ) (exact : methods.Exact) (pull : Option (Pull ℝ))
    (wide : x.length = system.free.length) :
    ∃ y steps, (system.solve methods options pull x).outcome =
        .ok (system.outcomeAt options y steps) ∧
      (y = setOut pull x ∨
        y = (Descent.hard methods options system (handOver methods options system pull x)).x) := by
  unfold solve
  split
  · exact ⟨setOut pull x, 0, by cases pull <;> rfl, .inl rfl⟩
  · cases pull with
    | none => exact ⟨_, _, outcome_of_conclude_hard exact wide _ _, .inr rfl⟩
    | some pull =>
      have unbroken : (Descent.pulled methods options system pull x).failure = none :=
        Descent.failure_run exact (Descent.shaped_pulled system pull) _ _ _
          (Descent.evaluates_start _ _ _) ((pull.length_recenter x).trans wide)
      have wide' : (Descent.pulled methods options system pull x).x.length =
          system.free.length :=
        ((Descent.length_run _ _ _ _).trans (pull.length_recenter x)).trans wide
      simp only [unbroken]
      exact ⟨_, _, outcome_of_conclude_hard exact wide' _ _, .inr rfl⟩

/-- The joint descent on all equations leaves the hard ones no worse than at the target. -/
theorem cost_pulled_le {pull : Pull ℝ} (fits : pull.Fits x.length) :
    Descent.cost (system.residuals (Descent.pulled methods options system pull x).x) ≤
      Descent.cost (system.residuals (pull.recenter x)) := by
  let problem := Descent.Problem.pulled system pull
  let joint := Descent.pulled methods options system pull x
  calc Descent.cost (system.residuals joint.x)
    _ ≤ Descent.cost (system.residuals joint.x) + Descent.cost (pull.residuals joint.x) :=
      le_add_of_nonneg_right (Descent.cost_nonneg _)
    _ = Descent.cost (problem.residuals joint.x) := (Descent.cost_append _ _).symm
    _ ≤ Descent.cost (problem.residuals (pull.recenter x)) :=
      Descent.cost_run_le _ _ _ (Descent.evaluates_start _ _ _)
    _ = Descent.cost (system.residuals (pull.recenter x)) + Descent.cost [0, 0] := by
      rw [← pull.residuals_recenter fits]
      exact Descent.cost_append _ _
    _ = Descent.cost (system.residuals (pull.recenter x)) := by simp

/-- Both descents together leave the hard equations no worse than they are where a solve sets
out. -/
theorem cost_hard_le {pull : Option (Pull ℝ)} (fits : ∀ p ∈ pull, p.Fits x.length) :
    Descent.cost (system.residuals (Descent.hard methods options system
        (handOver methods options system pull x)).x) ≤
      Descent.cost (system.residuals (setOut pull x)) := by
  refine (Descent.cost_run_le _ _ _ (Descent.evaluates_start (Descent.Problem.hard system)
    options.initialDamping _)).trans ?_
  cases pull with
  | none => exact le_rfl
  | some pull => exact cost_pulled_le (fits pull rfl)

/-- Where nothing is left to pull, it is the hard equations that make a position stationary. -/
theorem stationary_pulled {pull : Pull ℝ} (fits : pull.Fits x.length)
    (hard : (Descent.Problem.hard system).Stationary (pull.recenter x)) :
    (Descent.Problem.pulled system pull).Stationary (pull.recenter x) := by
  intro e long
  have sides := (system.shape_jacobian (pull.recenter x)).1
  rw [Descent.Problem.pulled, List.map_append, Vector.dot_append (by simp [sides]),
    Pull.residuals_recenter fits]
  exact (congrArg₂ (· + ·) (hard e long) (Vector.dot_replicate_zero _ 2)).trans (add_zero 0)

/-- **Where a pull leads to a position that is stationary** for the hard equations, a solve ends
there. -/
theorem exists_outcome_of_stationary (exact : methods.Exact) {pull : Pull ℝ}
    (wide : x.length = system.free.length) (fits : pull.Fits x.length)
    (damped : 0 < options.initialDamping) (tolerant : 0 ≤ options.stepTolerance)
    (hard : (Descent.Problem.hard system).Stationary (pull.recenter x)) :
    ∃ steps, (system.solve methods options (some pull) x).outcome =
      .ok (system.outcomeAt options (pull.recenter x) steps) := by
  have wide' : (pull.recenter x).length = system.free.length :=
    (pull.length_recenter x).trans wide
  have pulled : handOver methods options system (some pull) x = pull.recenter x :=
    Descent.run_of_stationary exact (Descent.shaped_pulled system pull) _ _ _
      (Descent.evaluates_start _ _ _) wide' damped tolerant (stationary_pulled fits hard)
  have stays : (Descent.hard methods options system (pull.recenter x)).x = pull.recenter x :=
    Descent.run_of_stationary exact (Descent.shaped_hard system) _ _ _
      (Descent.evaluates_start _ _ _) wide' damped tolerant hard
  obtain ⟨y, steps, ended, rfl | rfl⟩ := exists_outcome options exact (some pull) wide
  · exact ⟨steps, ended⟩
  · rw [pulled, stays] at ended
    exact ⟨steps, ended⟩

end Equations

/-- **A solve leaves the equations no worse than they are where it sets out**, which with a pull is
at the target; it converges when they hold there. -/
theorem exists_outcome_cost_le {system : Equations ℝ} {methods : Methods ℝ} {options : Options ℝ}
    {pull : Option (Pull ℝ)} {x : List ℝ} (exact : methods.Exact)
    (positive : 0 < options.tolerance) (wide : x.length = system.free.length)
    (fits : ∀ p ∈ pull, p.Fits x.length) :
    ∃ outcome, (system.solve methods options pull x).outcome = .ok outcome ∧
      Descent.cost outcome.residuals ≤
        Descent.cost (system.residuals (Equations.setOut pull x)) ∧
      ((∀ r ∈ system.residuals (Equations.setOut pull x), r = 0) → outcome.converged = true) := by
  obtain ⟨y, steps, ended, place⟩ :=
    Equations.exists_outcome options exact pull wide
  have lower : Descent.cost (system.residuals y) ≤
      Descent.cost (system.residuals (Equations.setOut pull x)) := by
    rcases place with rfl | rfl
    · exact le_rfl
    · exact Equations.cost_hard_le fits
  refine ⟨_, ended, lower, fun holds => ?_⟩
  rw [Descent.cost_eq_zero_iff.mpr holds] at lower
  exact Equations.converged_at_rest
    (Descent.cost_eq_zero_iff.mp (le_antisymm lower (Descent.cost_nonneg _))) positive steps

/-! ### The tip of an arm on its pivot -/

namespace Arm

/-- An arm of length one around a point that is bound at the origin. -/
noncomputable def system : Equations ℝ where
  blocks := [⟨.constraint ⟨1, 0⟩ .length, .distance ⟨0, 0⟩ ⟨1, 0⟩ 1⟩]
  free := coordinates [⟨1, 0⟩]
  constants := fun _ => 0

/-- The tip is dragged to a target. -/
noncomputable def pull (target : Vec2 ℝ) : Pull ℝ := ⟨[0], [1], target, Options.real.dragWeight⟩

theorem pull?_eq (target : Vec2 ℝ) :
    system.pull? [⟨1, 0⟩] target Options.real.dragWeight = some (pull target) := rfl

theorem recenter_eq (target : Vec2 ℝ) :
    (pull target).recenter [1, 0] = [target.x, target.y] := by
  simp [pull, Pull.recenter, Pull.shift, Pull.meanAt, Vector.mean, Vector.sum, Scalar.ofNat_real]

section Position

variable (a b : ℝ)

theorem point_pivot : (system.valuation [a, b]).point ⟨0, 0⟩ = ⟨0, 0⟩ := by
  simp [Valuation.point, Equations.valuation, Equations.column?, system, coordinates,
    List.findIdx?_cons]

theorem point_tip : (system.valuation [a, b]).point ⟨1, 0⟩ = ⟨a, b⟩ := by
  simp [Valuation.point, Equations.valuation, Equations.column?, system, coordinates,
    List.findIdx?_cons]

theorem residuals_eq : system.residuals [a, b] = [(a * a + b * b - 1) / 2] := by
  have block : system.residuals [a, b] =
      (Relation.distance ⟨0, 0⟩ ⟨1, 0⟩ 1).residual (system.valuation [a, b]) ++ [] := rfl
  simp [block, Relation.residual, point_pivot, point_tip]

theorem jacobian_eq : system.jacobian [a, b] = [[a, b]] := by
  have block : system.jacobian [a, b] =
      ((Relation.distance ⟨0, 0⟩ ⟨1, 0⟩ 1).gradient (system.valuation [a, b])).map
        (fun row => (coordinates [⟨1, 0⟩]).map
          (Block.partialBy (coordinates [⟨0, 0⟩, ⟨1, 0⟩]) row)) ++ [] := rfl
  simp [block, Relation.gradient, point_pivot, point_tip, coordinates, Block.partialBy]

end Position

/-- On the pivot no step changes the length of the arm to first order. -/
theorem stationary_pivot : (Descent.Problem.hard system).Stationary [0, 0] := by
  intro e _
  have flat : Vector.dot [0, 0] e = 0 := by
    rw [Vector.dot, List.zipWith_comm_of_comm fun a b => mul_comm a b]
    exact Vector.dot_replicate_zero e 2
  show Vector.dot ((system.jacobian [0, 0]).map (Vector.dot · e)) (system.residuals [0, 0]) = 0
  rw [jacobian_eq, residuals_eq, List.map_singleton, flat]
  simp [Vector.dot, Vector.sum]

theorem outcome_eq {methods : Methods ℝ} (exact : methods.Exact) :
    ∃ steps, (system.solve methods Options.real (some (pull ⟨0, 0⟩)) [1, 0]).outcome =
      .ok (system.outcomeAt Options.real [0, 0] steps) := by
  have damped : 0 < Options.real.initialDamping := by
    norm_num [Options.real, Options.standard, Scalar.ofDecimal]
  have tolerant : 0 ≤ Options.real.stepTolerance := by
    norm_num [Options.real, Options.standard, Scalar.ofDecimal]
  have pivot := recenter_eq ⟨0, 0⟩
  rw [← pivot]
  exact Equations.exists_outcome_of_stationary exact rfl (Equations.fits_of_pull? (pull?_eq _))
    damped tolerant (pivot ▸ stationary_pivot)

end Arm

/-- Dragged a quarter around, the arm still has its length. -/
theorem exists_outcome_cost_le_arm :
    Methods.closest.Exact ∧ 0 < Options.real.tolerance ∧
    Arm.system.pull? [⟨1, 0⟩] ⟨0, 1⟩ Options.real.dragWeight = some (Arm.pull ⟨0, 1⟩) ∧
    ∃ outcome, (Arm.system.solve Methods.closest Options.real (some (Arm.pull ⟨0, 1⟩))
        [1, 0]).outcome = .ok outcome ∧
      Descent.cost outcome.residuals ≤ Descent.cost (Arm.system.residuals [0, 1]) ∧
      outcome.converged = true := by
  have wide : [(1 : ℝ), 0].length = Arm.system.free.length := rfl
  have fits : ∀ p ∈ some (Arm.pull ⟨0, 1⟩), p.Fits [(1 : ℝ), 0].length := by
    rintro p ⟨⟩
    exact Equations.fits_of_pull? (Arm.pull?_eq ⟨0, 1⟩)
  obtain ⟨outcome, ended, lower, converges⟩ :=
    exists_outcome_cost_le Methods.exact_closest Options.tolerance_real_pos wide fits
  have target : Equations.setOut (some (Arm.pull ⟨0, 1⟩)) [1, 0] = [0, 1] :=
    Arm.recenter_eq ⟨0, 1⟩
  rw [target] at lower converges
  exact ⟨Methods.exact_closest, Options.tolerance_real_pos, Arm.pull?_eq _, outcome, ended, lower,
    converges (by simp [Arm.residuals_eq])⟩

/-- **A drag can leave constraints broken that held before**: the tip of an arm is dropped on the
pivot, and no step leads away from there. -/
theorem exists_unconverged_by_drag :
    (∃ methods : Methods ℝ, methods.Exact) ∧ ∀ methods : Methods ℝ, methods.Exact →
      ∃ outcome, (Arm.system.solve methods Options.real
          (Arm.system.pull? [⟨1, 0⟩] ⟨0, 0⟩ Options.real.dragWeight) [1, 0]).outcome =
            .ok outcome ∧
        (∀ r ∈ Arm.system.residuals [1, 0], r = 0) ∧ outcome.converged = false ∧
        Descent.cost (Arm.system.residuals [1, 0]) < Descent.cost outcome.residuals := by
  refine ⟨⟨_, Methods.exact_closest⟩, fun methods exact => ?_⟩
  obtain ⟨steps, ended⟩ := Arm.outcome_eq exact
  refine ⟨_, ended, ?_, ?_, ?_⟩
  · simp [Arm.residuals_eq]
  · rw [Bool.eq_false_iff]
    intro converged
    have below := Equations.abs_lt_of_converged converged
      (by rw [Arm.residuals_eq]; exact List.mem_cons_self)
    norm_num [Options.real, Options.standard, Scalar.ofDecimal] at below
  · rw [Equations.outcomeAt, Arm.residuals_eq, Arm.residuals_eq]
    norm_num

end PlaneSketch
