import Mathlib
import PlaneSketch.Outcome
import PlaneSketch.Scalar.Real

/-!
What solving one system promises, whatever the least-squares method does.

* `outcome_of_solve`: a solve ends at a position with as many entries as the one it started from,
  and its outcome is the evaluation of the system there.
* `abs_lt_of_converged`: at the position of a converged outcome, every residual is below the
  tolerance.
* `solve_of_converged`: where a system has converged, a solve stays.
-/

namespace PlaneSketch

variable {α : Type} [Scalar α]

/-! ### As many entries as before -/

theorem Vector.length_add (xs ys : List α) :
    (Vector.add xs ys).length = min xs.length ys.length := by
  rw [Vector.add, List.length_zipWith]

theorem Pull.length_recenter (pull : Pull α) (x : List α) :
    (pull.recenter x).length = x.length := by
  simp [Pull.recenter, Pull.shift]

namespace Descent

variable {methods : Methods α} {options : Options α} {problem : Problem α}

theorem length_step {p : Position α} {delta : List α}
    (stepped : step? methods problem p = some delta) : delta.length = p.x.length :=
  methods.length_step stepped

/-- However a descent goes, the position keeps its number of entries. -/
theorem length_run (target : Option α) (budget taken : Nat) (p : Position α) :
    (run methods options problem target budget taken p).x.length = p.x.length := by
  induction budget generalizing taken p with
  | zero => rfl
  | succ budget ih =>
    rw [run]
    split
    · rfl
    · cases stepped : step? methods problem p with
      | none => rfl
      | some delta =>
        have moved : (Vector.add p.x delta).length = p.x.length := by
          rw [Vector.length_add, length_step stepped, Nat.min_self]
        dsimp only
        split
        · rfl
        · split
          · exact (ih _ _).trans moved
          · split
            · rfl
            · exact ih _ _

/-- A descent that starts below its target takes no step. -/
theorem run_of_below {target : α} {p : Position α}
    (below : Ordered.lt (Vector.maxAbs p.residuals) target = true) (budget taken : Nat) :
    run methods options problem (some target) budget taken p = ⟨p.x, taken, [], none⟩ := by
  cases budget with
  | zero => rfl
  | succ budget => rw [run, if_pos (by simpa using below)]

end Descent

namespace Equations

variable {methods : Methods α} {options : Options α} {system : Equations α} {pull : Option (Pull α)}
  {x : List α} {outcome : Outcome α}

theorem outcome_of_conclude {before : Nat} {events : List (Descent.Event α)}
    {trail : Descent.Trail α}
    (done : (system.conclude options before events trail).outcome = .ok outcome) :
    outcome = system.outcomeAt options trail.x (before + trail.steps) := by
  simp only [conclude] at done
  split at done
  · cases done
  · cases done
    rfl

/-- **A solve ends with the evaluation of the system at a position**, which has as many entries as
the one that the solve started from. -/
theorem outcome_of_solve (done : (system.solve methods options pull x).outcome = .ok outcome) :
    ∃ (y : List α) (steps : Nat), y.length = x.length ∧
      outcome = system.outcomeAt options y steps := by
  unfold solve at done
  split at done
  · cases done
    cases pull with
    | none => exact ⟨x, 0, rfl, rfl⟩
    | some pull => exact ⟨pull.recenter x, 0, pull.length_recenter x, rfl⟩
  · cases pull with
    | none => exact ⟨_, _, Descent.length_run _ _ _ _, outcome_of_conclude done⟩
    | some pull =>
      dsimp only at done
      split at done
      · cases done
      · have joint : (Descent.pulled methods options system pull x).x.length = x.length :=
          (Descent.length_run _ _ _ _).trans (pull.length_recenter x)
        exact ⟨_, _, (Descent.length_run _ _ _ _).trans joint, outcome_of_conclude done⟩

/-- **Where a system has converged, a solve stays**: the first descent asks for nothing that the
end of the last one did not ask for. -/
theorem solve_of_converged (methods : Methods α) {steps : Nat}
    (converged : (system.outcomeAt options x steps).converged = true) :
    system.solve methods options none x = ⟨[], .ok (system.outcomeAt options x 0)⟩ := by
  obtain ⟨-, below⟩ := Bool.and_eq_true_iff.mp converged
  unfold solve
  split
  · rfl
  · dsimp only [Descent.hard]
    rw [Descent.run_of_below below]
    rfl

end Equations

/-! ### Below the tolerance -/

theorem Scalar.greater_real (a b : ℝ) : Scalar.greater a b = max a b := by
  by_cases less : a < b
  · simp [Scalar.greater, less, less.le]
  · have order : b ≤ a := not_lt.mp less
    simp [Scalar.greater, less, order]

/-- The larger of a bound and all magnitudes. -/
theorem Vector.le_foldl_greater (xs : List ℝ) (m : ℝ) :
    m ≤ xs.foldl (fun m x => Scalar.greater m (Scalar.abs x)) m ∧
      ∀ r ∈ xs, |r| ≤ xs.foldl (fun m x => Scalar.greater m (Scalar.abs x)) m := by
  induction xs generalizing m with
  | nil => exact ⟨le_rfl, by simp⟩
  | cons x xs ih =>
    obtain ⟨least, all⟩ := ih (Scalar.greater m (Scalar.abs x))
    have both : m ≤ Scalar.greater m (Scalar.abs x) ∧ |x| ≤ Scalar.greater m (Scalar.abs x) := by
      rw [Scalar.greater_real]
      exact ⟨le_max_left _ _, le_max_right _ _⟩
    refine ⟨both.1.trans least, ?_⟩
    intro r member
    rcases List.mem_cons.mp member with rfl | later
    · exact both.2.trans least
    · exact all r later

/-- No entry is larger than the largest magnitude. -/
theorem Vector.abs_le_maxAbs {xs : List ℝ} {r : ℝ} (member : r ∈ xs) : |r| ≤ Vector.maxAbs xs :=
  (Vector.le_foldl_greater xs 0).2 r member

/-- **Where a solve converged, every residual is below the tolerance.** -/
theorem Equations.abs_lt_of_converged {system : Equations ℝ} {options : Options ℝ} {x : List ℝ}
    {steps : Nat} (converged : (system.outcomeAt options x steps).converged = true) {r : ℝ}
    (member : r ∈ system.residuals x) : |r| < options.tolerance := by
  obtain ⟨-, below⟩ := Bool.and_eq_true_iff.mp converged
  exact (Vector.abs_le_maxAbs member).trans_lt (Ordered.lt_real.mp below)

/-! ### At rest -/

theorem Vector.maxAbs_of_forall_eq_zero {xs : List ℝ} (rest : ∀ r ∈ xs, r = 0) :
    Vector.maxAbs xs = 0 := by
  rw [Vector.maxAbs]
  induction xs with
  | nil => rfl
  | cons x xs ih =>
    obtain rfl := rest x List.mem_cons_self
    have kept : Scalar.greater 0 (Scalar.abs (0 : ℝ)) = 0 := by
      simp [Scalar.greater_real, Scalar.abs]
    rw [List.foldl_cons, kept]
    exact ih fun r later => rest r (List.mem_cons_of_mem 0 later)

section AtRest

variable {system : Equations ℝ} {options : Options ℝ} {x : List ℝ}

/-- Where every residual is zero, a system has converged. -/
theorem Equations.converged_at_rest (rest : ∀ r ∈ system.residuals x, r = 0)
    (positive : 0 < options.tolerance) (steps : Nat) :
    (system.outcomeAt options x steps).converged = true := by
  have below : (0 : ℝ) < Scalar.residualCeiling := by
    norm_num [Scalar.residualCeiling, Scalar.ofDecimal]
  have still := Vector.maxAbs_of_forall_eq_zero rest
  have finite : (system.residuals x).all Scalar.isFinite = true := by
    rw [List.all_eq_true]
    exact fun _ _ => rfl
  simp [Equations.outcomeAt, Vector.isUsable, still, finite, below, positive]

/-- **A system at rest stays where it is**, whatever the least-squares method does. -/
theorem Equations.solve_at_rest (methods : Methods ℝ) (rest : ∀ r ∈ system.residuals x, r = 0)
    (positive : 0 < options.tolerance) :
    system.solve methods options none x = ⟨[], .ok (system.outcomeAt options x 0)⟩ :=
  Equations.solve_of_converged methods (Equations.converged_at_rest rest positive 0)

end AtRest

end PlaneSketch
