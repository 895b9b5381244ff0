import Mathlib
import PlaneSketch.CommandLine.Run
import PlaneSketch.Proofs.Reports
import PlaneSketch.Proofs.Success

/-!
Three ways to ask whether a solve went well.

`Result.success` reads the flaws and whether every island converged; `Result.verdict?` the flaws and
the islands that did not converge; a strict run the states of the islands alone. Islands that were
skipped make the difference: the second does not look for them, and the third finds nothing else of
a flaw. The three agree because every flaw is shared out to a report that is skipped, even one
about nothing live, and no island is skipped without a flaw.

* `Result.Blames.flaws_eq_nil_iff`: no flaws, no skipped reports.
* `verdicts_agree`: the three answers, on every result of a solve.
* `strict_run_done_iff`: what a strict run ends with.
-/

namespace PlaneSketch

namespace Result

section States

variable {α : Type} {result : Result α}

/-- Of the four states, two are those of islands that are solved. -/
theorem isConverged_iff {status : Status} :
    status.isConverged = true ↔ status ≠ .unconverged ∧ status ≠ .skipped := by
  cases status <;> simp [Status.isConverged]

theorem success_iff : result.success = true ↔
    result.flaws = [] ∧ ∀ report ∈ result.islands, report.status.isConverged = true := by
  rw [success, Bool.and_eq_true, List.isEmpty_iff, List.all_eq_true]

theorem unsolved_eq_nil_iff : result.unsolved = [] ↔
    ∀ report ∈ result.islands, report.status ≠ .unconverged ∧ report.status ≠ .skipped := by
  simp [unsolved, List.filter_eq_nil_iff]

end States

variable {α : Type} [Scalar α] {result : Result α} {sketch : Sketch α} {pool : Pool α}

theorem verdict?_eq_none_iff : result.verdict? = none ↔
    result.flaws = [] ∧ ∀ report ∈ result.islands, report.status ≠ .unconverged := by
  have converged : result.failed = [] ↔
      ∀ report ∈ result.islands, report.status ≠ .unconverged := by
    simp [failed, List.filter_eq_nil_iff]
  rw [← converged]
  unfold verdict?
  cases result.flaws with
  | cons flaw flaws => simp
  | nil => cases result.failed <;> simp

/-- **Flaws show as skipped reports**, and these as flaws. -/
theorem Blames.flaws_eq_nil_iff (blames : result.Blames sketch pool) :
    result.flaws = [] ↔ ∀ report ∈ result.islands, report.status ≠ .skipped := by
  have shared : result.flaws = [] ↔ ∀ report ∈ result.islands, report.flaws = [] := by
    rw [← List.flatMap_eq_nil_iff]
    exact ⟨fun none => (none ▸ blames.shared).eq_nil,
      fun none => (none ▸ blames.shared).nil_eq.symm⟩
  rw [shared]
  refine forall₂_congr fun report member => ?_
  rw [ne_eq, blames.skipped report member, not_not]

theorem Blames.success_iff_unsolved (blames : result.Blames sketch pool) :
    result.success = true ↔ result.unsolved = [] := by
  rw [success_iff, blames.flaws_eq_nil_iff, unsolved_eq_nil_iff]
  refine ⟨fun good report member => isConverged_iff.mp (good.2 report member), fun solved =>
    ⟨fun report member => (solved report member).2, fun report member =>
      isConverged_iff.mpr (solved report member)⟩⟩

theorem Blames.verdict?_iff_unsolved (blames : result.Blames sketch pool) :
    result.verdict? = none ↔ result.unsolved = [] := by
  rw [verdict?_eq_none_iff, blames.flaws_eq_nil_iff, unsolved_eq_nil_iff]
  exact ⟨fun good report member => ⟨good.2 report member, good.1 report member⟩, fun solved =>
    ⟨fun report member => (solved report member).2, fun report member =>
      (solved report member).1⟩⟩

end Result

/-- **A strict run ends well exactly when the solve was a success.** Any other run does in any
case. -/
theorem strict_run_done_iff {job : CommandLine.Job} {sketch : Sketch Float}
    {drag : Option (Drag Float)} {result : Result Float}
    (done : sketch.solve Doubles.numerals Doubles.methods job.options drag = .ok result) :
    (job.conclude result).1 = .done ↔ job.strict = true → result.success = true := by
  obtain ⟨pool, blocks, -, blames⟩ : ∃ pool blocks, _ ∧ result.Blames sketch pool :=
    blames_of_solve (Prod.ext rfl done)
  rw [blames.success_iff_unsolved]
  unfold CommandLine.Job.conclude
  cases job.strict with
  | false => simp
  | true => cases result.unsolved <;> simp

/-- **The verdicts agree.** Of every result of a solve, success is said exactly when no reason
against it is found, and exactly when no island is left unsolved: none did not converge, and none
was skipped. -/
theorem verdicts_agree {α ν : Type} [Scalar α] [Ordered ν] {numerals : Numerals ν α}
    {session session' : Session α} {methods : Methods α} {options : Options ν} {sketch : Sketch α}
    {drag : Option (Drag α)} {result : Result α}
    (done : session.solve numerals methods options sketch drag = (session', .ok result)) :
    (result.success = true ↔ result.verdict? = none) ∧
      (result.success = true ↔ result.unsolved = []) ∧
      (result.unsolved = [] ↔ ∀ report ∈ result.islands,
        report.status ≠ .unconverged ∧ report.status ≠ .skipped) := by
  obtain ⟨pool, blocks, -, blames⟩ := blames_of_solve done
  refine ⟨?_, blames.success_iff_unsolved, Result.unsolved_eq_nil_iff⟩
  rw [blames.success_iff_unsolved, blames.verdict?_iff_unsolved]

/-- Nothing but a constraint on features that are not there. -/
noncomputable def stray : Sketch ℝ where
  features := .empty
  constraints := ⟨[⟨some (.plain .coincident [⟨0, 0⟩, ⟨1, 0⟩] none none), 0⟩]⟩
  groups := []

namespace Stray

noncomputable def flaw : Flaw ℝ := .constraint ⟨0, 0⟩ .coincident [⟨0, 0⟩, ⟨1, 0⟩] 
  (.dead ⟨0, 0⟩ false)

noncomputable def plan : Plan ℝ := ⟨[flaw], Pool.ofSketch stray, [], [], [flaw], false, [], []⟩

theorem made : Plan.make stray (Session.fresh.seeded stray) none = .ok plan := by cbv

/-- The flaw is reported by itself. -/
noncomputable def result : Result ℝ :=
  ⟨[], [.skipped ⟨0, [], [], []⟩ [flaw]], [flaw]⟩

theorem solve_eq (methods : Methods ℝ) :
    Session.fresh.solve ⟨id, fun _ => ""⟩ methods Options.real stray none =
      (.fresh, .ok result) := by
  rw [Session.solve_of_isUsable Options.isUsable_real made]
  rfl

end Stray

theorem verdicts_agree_stray :
    Session.fresh.solve ⟨id, fun _ => ""⟩ .orthogonal Options.real stray none =
        (.fresh, .ok Stray.result) ∧
      (Stray.result.success = true ↔ Stray.result.verdict? = none) ∧
      (Stray.result.success = true ↔ Stray.result.unsolved = []) :=
  ⟨Stray.solve_eq .orthogonal, (verdicts_agree (Stray.solve_eq .orthogonal)).1,
    (verdicts_agree (Stray.solve_eq .orthogonal)).2.1⟩

end PlaneSketch
