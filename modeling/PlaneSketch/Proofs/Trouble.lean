import Mathlib
import PlaneSketch.Document
import PlaneSketch.Doubles
import PlaneSketch.Proofs.Damping
import PlaneSketch.Proofs.Planning
import PlaneSketch.Proofs.Reports

/-!
Trouble with numbers.

The numbers of a drawing need not be proper ones, and equations of proper numbers can have
derivatives that are not. Residuals that are no numbers are told as data: their island is
unconverged, and the others are solved as usual. Three kinds of trouble are not, and then nothing
is told of any island.

* `failure_run_cases`: a descent is cut short only at the last position where it asks for a step,
  and only when the matrix of that step is not one of numbers: the Jacobian there, with the damping
  in rows below it.
* `diagnose_cases`: a diagnosis fails when the Jacobian is no matrix of numbers, and only then.
* `ends_of_solve`: without a drag a solve tells of every island, or it meets an infinite angle or
  such a matrix.
* `exists_infinite_angle`: a document can ask for an infinite angle, and nothing of it is solved.
-/

namespace PlaneSketch

/-- The methods work for matrices of numbers, and for no others. -/
structure Methods.Strict {α : Type} [Scalar α] (methods : Methods α) : Prop where
  step : ∀ width rows target,
    (methods.leastSquares? width rows target).isSome = Matrix.isFinite rows
  values : ∀ rows, (methods.singularValues? rows).isSome = Matrix.isFinite rows

variable {α : Type} [Scalar α]

theorem Methods.strict_orthogonal : (Methods.orthogonal : Methods α).Strict where
  step width rows target := by
    simp only [Methods.orthogonal]
    split <;> simp_all
  values rows := by
    simp only [Methods.orthogonal]
    split <;> simp_all

/-! ### Descents -/

namespace Descent

variable {methods : Methods α} {options : Options α} {problem : Problem α}

/-- The matrix of the step that is asked for at a position, with the damping there, is no matrix of
numbers. -/
def Problem.Blocked (problem : Problem α) (p : Position α) : Prop :=
  Matrix.isFinite
    (stepSystem (problem.jacobian p.x) p.residuals p.damping p.x.length).1 = false

/-- There is no step from where a problem is blocked, and from nowhere else. -/
theorem step?_eq_none_iff (strict : methods.Strict) (p : Position α) :
    step? methods problem p = none ↔ problem.Blocked p := by
  have answers : (step? methods problem p).isSome =
      Matrix.isFinite (stepSystem (problem.jacobian p.x) p.residuals p.damping p.x.length).1 :=
    strict.step _ _ _
  rw [Problem.Blocked, ← answers, Option.isSome_eq_false_iff, Option.isNone_iff_eq_none]

/-- A descent without a step from where it stands is cut short there. -/
theorem failure_run_of_step? {target : Option α} {p : Position α} (budget taken : Nat)
    (unmet : meets target p = false) (none : step? methods problem p = none) :
    (run methods options problem target (budget + 1) taken p).failure = some .noStep ∧
      (asked methods options problem target (budget + 1) p).getLast? = some p := by
  have stop : turn methods options problem p = .stop := by rw [turn, none]
  constructor
  · rw [run, ← meets, if_neg (Bool.eq_false_iff.mp unmet), none]
  · rw [asked, if_neg (Bool.eq_false_iff.mp unmet), stop]
    rfl

/-- **A descent is cut short at the last position where it asks for a step**, and only when it is
blocked there. -/
theorem failure_run_cases (strict : methods.Strict) (target : Option α) (budget taken : Nat)
    (p : Position α) :
    (run methods options problem target budget taken p).failure = none ∨
      (run methods options problem target budget taken p).failure = some .noStep ∧
        ∃ q, (asked methods options problem target budget p).getLast? = some q ∧
          q.x = (run methods options problem target budget taken p).x ∧ problem.Blocked q := by
  induction budget generalizing taken p with
  | zero => exact .inl rfl
  | succ budget ih =>
    by_cases met : meets target p = true
    · rw [run, ← meets, if_pos met]
      exact .inl rfl
    · have unmet := Bool.eq_false_iff.mpr met
      cases turned : (turn methods options problem p).next? with
      | none =>
        refine (run_of_stop unmet turned).2.2.imp_right fun failed => ?_
        obtain ⟨short, last⟩ := failure_run_of_step? budget taken unmet failed
        refine ⟨short, p, last, ?_, (step?_eq_none_iff strict p).mp failed⟩
        exact (run_of_stop unmet turned).1.symm
      | some next =>
        obtain ⟨event, goes⟩ := run_of_next budget taken unmet turned
        rw [goes]
        rcases ih (taken + 1) next with fine | ⟨short, q, last, here, blocked⟩
        · exact .inl fine
        · refine .inr ⟨short, q, ?_, here, blocked⟩
          rw [asked, if_neg met, turned, List.getLast?_cons, last]
          rfl

/-- The positions where the descent on the hard equations of a system asks for a step. -/
def askedHard (methods : Methods α) (options : Options α) (system : Equations α) (x : List α) :
    List (Position α) :=
  asked methods options (.hard system) (some options.tolerance) options.maxIterations.toNat
    (start (.hard system) options.initialDamping x)

end Descent

namespace Equations

variable {methods : Methods α} {options : Options α}

/-- **An attempt ends with an evaluation**, unless its descent is blocked. -/
theorem solve_cases (strict : methods.Strict) (system : Equations α) (x : List α) :
    (∃ y steps, y.length = x.length ∧ (system.solve methods options none x).outcome =
      .ok (system.outcomeAt options y steps)) ∨
    (system.solve methods options none x).outcome = .error .noStep ∧
      ∃ q, (Descent.askedHard methods options system x).getLast? = some q ∧
        q.x = (Descent.hard methods options system x).x ∧
        (Descent.Problem.hard system).Blocked q := by
  cases ended : (system.solve methods options none x).outcome with
  | ok outcome =>
    obtain ⟨y, steps, wide, rfl⟩ := outcome_of_solve ended
    exact .inl ⟨y, steps, wide, rfl⟩
  | error failure =>
    unfold solve at ended
    split at ended
    · cases ended
    · dsimp only [conclude] at ended
      rcases Descent.failure_run_cases strict (some options.tolerance) options.maxIterations.toNat 0
        (Descent.start (Descent.Problem.hard system) options.initialDamping x) with
        none | ⟨some, blocked⟩
      · rw [← Descent.hard.eq_1] at none
        rw [none] at ended
        cases ended
      · rw [← Descent.hard.eq_1] at some
        rw [some] at ended
        cases ended
        exact .inr ⟨rfl, blocked⟩

end Equations

/-! ### Diagnoses -/

section Diagnosing

variable {methods : Methods α} {options : Options α}

theorem Matrix.isFinite_of_size {rows : Matrix α} (empty : Matrix.size rows = 0) :
    Matrix.isFinite rows = true := by
  induction rows with
  | nil => rfl
  | cons row rows ih =>
    have both : row.length = 0 ∧ Matrix.size rows = 0 := by
      simpa [Matrix.size] using empty
    obtain rfl := List.length_eq_zero_iff.mp both.1
    exact ih both.2

theorem Matrix.isFinite_real (rows : Matrix ℝ) : Matrix.isFinite rows = true := by
  simp [Matrix.isFinite, Scalar.isFinite]

theorem Rank.isSome_numeric? (strict : methods.Strict) (rows : Matrix α) (tolerance : α) :
    (Rank.numeric? methods rows tolerance).isSome = Matrix.isFinite rows := by
  unfold Rank.numeric?
  split
  · rename_i empty
    rw [Matrix.isFinite_of_size empty]
    rfl
  · rw [Option.isSome_map, strict.values]

theorem Rank.isSome_threshold? (strict : methods.Strict) (rows : Matrix α) (tolerance : α) :
    (Rank.threshold? methods rows tolerance).isSome = Matrix.isFinite rows := by
  unfold Rank.threshold?
  split
  · rename_i empty
    rw [Matrix.isFinite_of_size empty]
    rfl
  · rw [Option.isSome_map, strict.values]

/-- **An outcome is diagnosed when its Jacobian is a matrix of numbers**, and not otherwise. -/
theorem diagnose_cases (strict : methods.Strict) (pool : Pool α) (system : Equations α)
    (outcome : Outcome α) :
    Matrix.isFinite outcome.jacobian = true ∧
      (∃ diagnosis, diagnose methods options pool system outcome = .ok diagnosis) ∨
    Matrix.isFinite outcome.jacobian = false ∧
      diagnose methods options pool system outcome = .error .noSingularValues := by
  have rank := Rank.isSome_numeric? strict outcome.jacobian options.rankTolerance
  have bound := Rank.isSome_threshold? strict outcome.jacobian options.rankTolerance
  cases finite : Matrix.isFinite outcome.jacobian with
  | true =>
    rw [finite] at rank bound
    obtain ⟨rank, ranked⟩ := Option.isSome_iff_exists.mp rank
    obtain ⟨bound, bounded⟩ := Option.isSome_iff_exists.mp bound
    obtain ⟨dependent, blamed⟩ : ∃ dependent,
        Diagnosis.blamed methods options system outcome.jacobian rank = .ok dependent := by
      unfold Diagnosis.blamed
      split
      · rw [bounded]
        exact ⟨_, rfl⟩
      · exact ⟨_, rfl⟩
    refine .inl ⟨rfl, ?_⟩
    simp only [diagnose, ranked, blamed, bind, Except.bind]
    split <;> exact ⟨_, rfl⟩
  | false =>
    rw [finite, Option.isSome_eq_false_iff, Option.isNone_iff_eq_none] at rank
    refine .inr ⟨rfl, ?_⟩
    simp only [diagnose, rank, bind, Except.bind]

end Diagnosing

/-! ### All islands -/

section Gathering

variable {plan : Plan α} {methods : Methods α} {options : Options α} {warm : Session α}
  {all : List (Plan.Solved α)} {island : Island α}

/-- **Gathering fails at a Jacobian that is no matrix of numbers**, and nowhere else. -/
theorem failure_gather_cases {blocks : List (Block α)} {links : List (List Variable)}
    (strict : methods.Strict) (warm : Session α)
    (components : Partition.Components plan.pool blocks links plan.islands)
    (solved : plan.solvedAll methods options = .ok all) (gathered : Session.Gathered α) :
    (Session.gather methods options plan warm all plan.islands gathered).2 = none ∨
      (Session.gather methods options plan warm all plan.islands gathered).2 =
          some .noSingularValues ∧
        ∃ s ∈ all, Matrix.isFinite s.outcome.jacobian = false := by
  generalize gathering : Session.gather methods options plan warm all plan.islands gathered = ended
  obtain ⟨final, stop⟩ := ended
  obtain ⟨_, rest, -, -, stops⟩ := Session.exists_gathered (fun _ _ => True) components solved
    (fun _ _ _ => trivial) (fun _ _ _ _ _ _ _ => trivial) trivial gathering
  cases stops with
  | done => exact .inl rfl
  | @undiagnosed s rest failure listed failed =>
    rcases diagnose_cases strict _ s.system s.outcome with
      ⟨-, diagnosis, diagnosed⟩ | ⟨infinite, none⟩
    · rw [diagnosed] at failed
      cases failed
    · rw [none] at failed
      cases failed
      exact .inr ⟨rfl, s, listed, infinite⟩

theorem Session.snd_carryOut (warm : Session α)
    (solved : plan.solvedAll methods options = .ok all) :
    (warm.carryOut methods options plan).2 =
      let gathered := Session.gather methods options plan warm all plan.islands
        ⟨plan.pool, warm, [], []⟩
      match gathered.2 with
      | some failure => .error failure
      | none =>
        let final := Session.addBound plan.islands (Session.addOrphans plan.orphans gathered.1)
        .ok ⟨final.updated, final.reports, plan.flaws⟩ := by
  rw [Session.carryOut, solved]
  dsimp only
  split <;> rename_i gathering <;> rw [gathering]

end Gathering

/-! ### A solve without a drag -/

namespace Plan

variable {plan : Plan α} {methods : Methods α} {options : Options α} {island : Island α}

/-- Where the free variables of an island start. -/
def start (plan : Plan α) (island : Island α) : List α := island.unknowns.map plan.pool.valuation

/-- The attempt at an island that nothing pulls. -/
def attempt (plan : Plan α) (methods : Methods α) (options : Options α) (island : Island α) :
    Attempt α :=
  (plan.system island).solve methods options none (plan.start island)

/-- The plan drags nothing, and the equations of all its islands are set up. -/
structure Undragged (plan : Plan α) : Prop where
  dragging : plan.dragging = false
  targets : plan.targets = []
  ready : ∀ island ∈ plan.islands, ∃ system, Equations.ofIsland plan.pool island = .ok system

/-- The outcome of an island is that of its attempt. -/
theorem Undragged.attempt_outcome (undragged : plan.Undragged) (known : island ∈ plan.islands) :
    (plan.attempt methods options island).outcome =
      (plan.solved methods options island).map Solved.outcome := by
  obtain ⟨⟨system, start⟩, made⟩ := undragged.ready island known
  obtain ⟨rfl, rfl⟩ := Equations.eq_of_ofIsland made
  have target : plan.target? island.index = none := by
    rw [target?, undragged.targets]
    rfl
  simp only [solved, trial, made, pull?_of_target? target,
    optionsFor_of_undragged undragged.dragging, bind, Except.bind, pure, Except.pure, attempt,
    system, start]
  split <;> simp_all [Except.map]

/-- What is reported of an island that is not skipped: its own attempt ended at a position where its
Jacobian is a matrix of numbers; it converged when its residuals there are numbers below the
tolerance, and is unconverged otherwise. -/
structure Answers (plan : Plan α) (methods : Methods α) (options : Options α) (result : Result α)
    (island : Island α) (report : Report α) (x : List α) : Prop where
  ended : (plan.attempt methods options island).outcome =
    .ok ((plan.system island).outcomeAt options x report.iterations)
  finite : Matrix.isFinite ((plan.system island).jacobian x) = true
  converged : report.status.isConverged = true ↔
    Vector.isUsable ((plan.system island).residuals x) = true ∧
      Ordered.lt (Vector.maxAbs ((plan.system island).residuals x)) options.tolerance = true
  unconverged : report.status.isConverged = false → report.status = .unconverged
  values : ∀ v ∈ island.unknowns, result.value? v = some ((plan.system island).valuation x v)

end Plan

/-- How a solve without a drag can end. -/
inductive Sketch.Ends (sketch : Sketch α) (pool : Pool α) (methods : Methods α)
    (options : Options α) : Except Failure (Result α) → Prop
  /-- a constraint that is not flawed asks for an infinite angle -/
  | infiniteAngle : sketch.AsksInfinite → Ends sketch pool methods options (.error .infiniteAngle)
  /-- the descent of an island to be solved is blocked at the last position where it asks for a
  step -/
  | noStep {plan : Plan α} {island : Island α} {q : Descent.Position α} :
      Plan.make sketch pool none = .ok plan →
      island ∈ plan.sound → (plan.attempt methods options island).outcome = .error .noStep →
      (Descent.askedHard methods options (plan.system island) (plan.start island)).getLast? =
        some q →
      q.x = (Descent.hard methods options (plan.system island) (plan.start island)).x →
      (Descent.Problem.hard (plan.system island)).Blocked q →
      Ends sketch pool methods options (.error .noStep)
  /-- the attempt at an island to be solved ends where its Jacobian is no matrix of numbers -/
  | noSingularValues {plan : Plan α} {island : Island α} {outcome : Outcome α} :
      Plan.make sketch pool none = .ok plan → island ∈ plan.sound →
      (plan.attempt methods options island).outcome = .ok outcome →
      Matrix.isFinite outcome.jacobian = false →
      Ends sketch pool methods options (.error .noSingularValues)
  /-- every island is told of: skipped, or with its own attempt -/
  | told {plan : Plan α} {result : Result α} : ¬sketch.AsksInfinite →
      Plan.make sketch pool none = .ok plan →
      (∀ island ∈ plan.islands, ∃ report, result.islands[island.index]? = some report ∧
        (plan.faultsOf island.index ≠ [] ∧ report.status = .skipped ∨
          plan.faultsOf island.index = [] ∧
            ∃ x, plan.Answers methods options result island report x)) →
      Ends sketch pool methods options (.ok result)

section Solving

variable {sketch : Sketch α} {start : Pool α} {plan : Plan α} {methods : Methods α}
  {options : Options α} {warm : Session α} {result : Result α} {blocks : List (Block α)}
  {links : List (List Variable)} {island : Island α}

/-- Without a drag a plan is made, unless a constraint asks for an infinite angle. -/
theorem Plan.make_cases (same : Pool.SameShape (Pool.ofSketch sketch) start) :
    Plan.make sketch start none = .error .infiniteAngle ∧ sketch.AsksInfinite ∨
      ¬sketch.AsksInfinite ∧ ∃ plan, Plan.make sketch start none = .ok plan ∧ plan.Undragged := by
  rcases Sketch.compiled_cases (Sketch.covers_of_sameShape same) with
    ⟨pool, blocks, compiled⟩ | ⟨failed, infinite⟩
  · obtain ⟨islands, done, ready⟩ := exists_islands same compiled
      (sketch.flaws.map (Plan.touched sketch pool))
    have partitioned : Plan.islandsOf sketch pool blocks sketch.flaws = .ok islands := done
    exact .inr ⟨Sketch.not_asksInfinite_of_compiled compiled, Plan.still sketch pool islands,
      Plan.make_none compiled partitioned, rfl, rfl, ready⟩
  · refine .inl ⟨?_, infinite⟩
    simp only [Plan.make, failed, bind, Except.bind]

/-- There is no plan when a constraint asks for an infinite angle, and only then. -/
theorem Plan.make_eq_error_iff (same : Pool.SameShape (Pool.ofSketch sketch) start) :
    Plan.make sketch start none = .error .infiniteAngle ↔ sketch.AsksInfinite := by
  rcases Plan.make_cases same with ⟨failed, infinite⟩ | ⟨finite, plan, make, -⟩
  · exact ⟨fun _ => infinite, fun _ => failed⟩
  · constructor
    · intro failed
      cases make.symm.trans failed
    · intro infinite
      exact absurd infinite finite

/-- An island that is told of answers for its own attempt. -/
theorem Told.answers (strict : methods.Strict) (told : Told plan methods options warm result)
    (undragged : plan.Undragged) (known : island ∈ plan.islands)
    (sound : plan.faultsOf island.index = []) {report : Report α}
    (reported : Reported plan methods options warm island report) :
    ∃ x, plan.Answers methods options result island report x := by
  obtain ⟨s, solved, values⟩ := told.value island known sound
  obtain ⟨iterations, converged, -⟩ := reported.of_solved sound solved
  have unskipped : report.status ≠ .skipped :=
    fun skipped => reported.skipped_iff.mp skipped sound
  have finite : Matrix.isFinite s.outcome.jacobian = true := by
    cases reported with
    | skipped faulty => exact absurd sound faulty
    | solved _ solved' _ diagnosed =>
      obtain rfl := Except.ok.inj (solved.symm.trans solved')
      rcases diagnose_cases strict _ s.system s.outcome with ⟨finite, -⟩ | ⟨-, failed⟩
      · exact finite
      · rw [failed] at diagnosed
        cases diagnosed
  have ended : (plan.attempt methods options island).outcome = .ok s.outcome := by
    rw [undragged.attempt_outcome known, solved]
    rfl
  obtain ⟨-, system, -⟩ := Plan.exists_of_solved solved
  obtain ⟨x, steps, -, outcome⟩ := Equations.outcome_of_solve ended
  rw [system, outcome] at values
  rw [outcome] at iterations converged finite ended
  refine ⟨x, ?_, finite, ?_, ?_, fun v unknown => values v (List.mem_append_left _ unknown)⟩
  · rw [ended, iterations]
    rfl
  · rw [converged]
    exact Bool.and_eq_true_iff
  · intro not
    cases status : report.status <;> simp_all [Status.isConverged]

/-- **An undragged plan is told of**, or an island of it is in trouble. -/
theorem ends_of_carryOut (strict : methods.Strict) (finite : ¬sketch.AsksInfinite)
    (make : Plan.make sketch start none = .ok plan) (undragged : plan.Undragged)
    (components : Partition.Components plan.pool blocks links plan.islands)
    (islands : partition plan.pool blocks links = .ok plan.islands) :
    sketch.Ends start methods options (warm.carryOut methods options plan).2 := by
  cases solved : plan.solvedAll methods options with
  | error failure =>
    obtain ⟨island, sound, failed⟩ := exists_of_mapM_eq_error solved
    have ended : (plan.attempt methods options island).outcome = .error failure := by
      rw [undragged.attempt_outcome (mem_sound_iff.mp sound).1, failed]
      rfl
    have failing : (warm.carryOut methods options plan).2 = .error failure := by
      rw [Session.carryOut, solved]
    rw [failing]
    rcases Equations.solve_cases strict (plan.system island) (plan.start island) with
      ⟨y, steps, -, returned⟩ | ⟨cut, q, last, here, blocked⟩
    · cases ended.symm.trans returned
    · cases ended.symm.trans cut
      exact .noStep make sound ended last here blocked
  | ok all =>
    rcases failure_gather_cases strict warm components solved
      ⟨plan.pool, warm, [], []⟩ with through | ⟨stopped, s, member, infinite⟩
    · have done := Session.snd_carryOut warm solved
      dsimp only at done
      rw [through] at done
      have told := told_of_carryOut components islands (Prod.ext rfl done)
      rw [done]
      refine .told finite make fun island known => ?_
      obtain ⟨report, placed, reported⟩ := told.report_at components known
      refine ⟨report, placed, ?_⟩
      by_cases sound : plan.faultsOf island.index = []
      · exact .inr ⟨sound, told.answers strict undragged known sound reported⟩
      · exact .inl ⟨sound, reported.skipped_iff.mpr sound⟩
    · obtain ⟨island, sound, done⟩ := mem_of_mapM_eq_ok solved member
      have ended : (plan.attempt methods options island).outcome = .ok s.outcome := by
        rw [undragged.attempt_outcome (mem_sound_iff.mp sound).1, done]
        rfl
      rw [Session.snd_carryOut warm solved]
      dsimp only
      rw [stopped]
      exact .noSingularValues make sound ended infinite

/-- Without a plan nothing is solved. -/
theorem Session.solve_of_make_eq_error {ν : Type} [Ordered ν] {numerals : Numerals ν α}
    {settings : Options ν} {session : Session α} {drag : Option (Drag α)} {failure : Failure}
    (usable : settings.isUsable = true)
    (failed : Plan.make sketch (session.seeded sketch) drag = .error failure) :
    (session.solve numerals methods settings sketch drag).2 = .error failure := by
  rw [Session.seeded] at failed
  unfold Session.solve Options.check
  rw [if_pos usable]
  unfold Session.solveWith
  simp only [failed]

/-- **How a solve without a drag ends.** For every drawing, all settings that pass the check, and
whatever is remembered, it tells of every island, each skipped or with its own attempt, with
residuals that are no numbers told as not converged; or it fails, and then a constraint asks for an
infinite angle, or the attempt at an island meets a matrix that is not one of numbers: that of the
last step it asks for, or the Jacobian where it ends. -/
theorem ends_of_solve {ν : Type} [Ordered ν] {numerals : Numerals ν α} {settings : Options ν}
    (strict : methods.Strict) (usable : settings.isUsable = true) (session : Session α)
    (sketch : Sketch α) :
    sketch.Ends (session.seeded sketch) methods (settings.map numerals.value)
      (session.solve numerals methods settings sketch none).2 := by
  have same := session.sameShape_seeded sketch
  rcases Plan.make_cases same with ⟨failed, infinite⟩ | ⟨finite, plan, make, undragged⟩
  · rw [Session.solve_of_make_eq_error usable failed]
    exact .infiniteAngle infinite
  · obtain ⟨blocks, made⟩ := Plan.exists_made make
    have components := made.components same
    rw [Session.solve_of_isUsable usable make]
    exact ends_of_carryOut strict finite make undragged components made.islands

end Solving

/-! ### An undefined height -/

namespace Hazy

/-- A line that has to be level, with one end drawn at some height. -/
def sketch (height : α) : Sketch α where
  features := ⟨[⟨some (.point 0 height false), 0⟩, ⟨some (.point 1 0 false), 0⟩,
    ⟨some (.line ⟨0, 0⟩ ⟨1, 0⟩ false), 0⟩]⟩
  constraints := ⟨[⟨some (.alongAxis ⟨2, 0⟩ .leftRight), 0⟩]⟩
  groups := []

/-- The island of both ends. -/
def island : Island α where
  index := 0
  unknowns := coordinates [⟨0, 0⟩, ⟨1, 0⟩]
  pinned := []
  blocks := [⟨.constraint ⟨0, 0⟩ .alongAxis, .level ⟨⟨0, 0⟩, .y⟩ ⟨⟨1, 0⟩, .y⟩⟩]

def plan (height : α) : Plan α where
  flaws := []
  pool := Session.fresh.seeded (sketch height)
  islands := [island]
  faults := []
  orphans := []
  dragging := false
  anchors := []
  targets := []

theorem made (height : α) :
    Plan.make (sketch height) (Session.fresh.seeded (sketch height)) none = .ok (plan height) := by
  cbv

theorem sound (height : α) : (plan height).sound = [island] := by cbv

/-- A height that is no number. -/
def height : Float := 0.0 / 0.0

/-- The settings as doubles. -/
def options : Options Float := Doubles.options.map Doubles.numerals.value

/-- The attempt ends with residuals that are no numbers, where the Jacobian is one of numbers. -/
theorem attempted : ∃ outcome,
    ((plan height).attempt Doubles.methods options island).outcome = .ok outcome ∧
      Matrix.isFinite outcome.jacobian = true ∧ Vector.isUsable outcome.residuals = false := by
  have checked : (((plan height).attempt Doubles.methods options island).outcome.toOption.any
      fun outcome => Matrix.isFinite outcome.jacobian && !Vector.isUsable outcome.residuals) =
        true := by
    decide +kernel
  cases ended : ((plan height).attempt Doubles.methods options island).outcome with
  | error failure =>
    rw [ended] at checked
    cases checked
  | ok outcome =>
    rw [ended] at checked
    have both : (Matrix.isFinite outcome.jacobian && !Vector.isUsable outcome.residuals) = true :=
      checked
    rw [Bool.and_eq_true, Bool.not_eq_true'] at both
    exact ⟨outcome, rfl, both⟩

/-- However a solve ends, it tells that the line is not level. -/
theorem unconverged_of_ends {ended : Except Failure (Result Float)}
    (ends : (sketch height).Ends (Session.fresh.seeded (sketch height)) Doubles.methods options
      ended) :
    ∃ result report, ended = .ok result ∧ result.islands[0]? = some report ∧
      report.status = .unconverged := by
  obtain ⟨outcome, attempted, finite, unusable⟩ := attempted
  cases ends with
  | infiniteAngle infinite =>
    have failed := (Plan.make_eq_error_iff (Session.fresh.sameShape_seeded _)).mpr infinite
    cases (made height).symm.trans failed
  | noStep make member failed =>
    obtain rfl := Except.ok.inj ((made height).symm.trans make)
    rw [sound, List.mem_singleton] at member
    subst member
    cases attempted.symm.trans failed
  | noSingularValues make member ended infinite =>
    obtain rfl := Except.ok.inj ((made height).symm.trans make)
    rw [sound, List.mem_singleton] at member
    subst member
    obtain rfl := Except.ok.inj (attempted.symm.trans ended)
    cases finite.symm.trans infinite
  | @told _ result _ make told =>
    obtain rfl := Except.ok.inj ((made height).symm.trans make)
    obtain ⟨report, placed, ⟨faulty, -⟩ | ⟨-, x, answers⟩⟩ := told island List.mem_cons_self
    · exact absurd rfl faulty
    · refine ⟨result, report, rfl, placed, answers.unconverged ?_⟩
      obtain rfl := Except.ok.inj (attempted.symm.trans answers.ended)
      rw [Bool.eq_false_iff]
      intro converged
      have usable := (answers.converged.mp converged).1
      cases unusable.symm.trans usable

end Hazy

/-! ### An infinite angle -/

/-- A line that has to stand at an angle. -/
def tilted (angle : α) : Sketch α where
  features := ⟨[⟨some (.point 0 0 false), 0⟩, ⟨some (.point 1 0 false), 0⟩,
    ⟨some (.line ⟨0, 0⟩ ⟨1, 0⟩ false), 0⟩]⟩
  constraints := ⟨[⟨some (.plain .angle [⟨2, 0⟩] (some angle) none), 0⟩]⟩
  groups := []

namespace Tilted

/-- The line as it is kept in a file, with an infinite angle. -/
def record : Json := .object [
  ("features", .array [
    .object [("kind", .string "point"), ("x", .int 0), ("y", .int 0)],
    .object [("kind", .string "point"), ("x", .int 1), ("y", .int 0)],
    .object [("kind", .string "line"), ("using_idx", .array [.int 0, .int 1])]]),
  ("constraints", .array [
    .object [("kind", .string "angle"), ("feature_idx", .array [.int 2]),
      ("amt", .float (1.0 / 0.0))]])]

theorem decoded : Document.decode record = .ok ⟨tilted (1.0 / 0.0), [], []⟩ := by rfl

theorem flawless (angle : α) : (tilted angle).flaws = [] := by cbv

theorem asksInfinite {angle : α} (infinite : Scalar.cosSin? angle = none) :
    (tilted angle).AsksInfinite := by
  refine ⟨⟨0, 0⟩, .plain .angle [⟨2, 0⟩] (some angle) none, rfl, ?_, rfl, infinite⟩
  rw [flawless]
  exact List.not_mem_nil

theorem cosSin?_eq_none : Scalar.cosSin? (1.0 / 0.0 : Float) = none :=
  Option.isNone_iff_eq_none.mp (by decide +kernel)

theorem make_eq : Plan.make (tilted (1.0 / 0.0 : Float)) (Session.fresh.seeded (tilted (1.0 / 0.0)))
    none = .error .infiniteAngle :=
  (Plan.make_eq_error_iff (Session.fresh.sameShape_seeded _)).mpr (asksInfinite cosSin?_eq_none)

/-- However a solve ends, it fails at the angle. -/
theorem eq_of_ends {methods : Methods Float} {options : Options Float}
    {ended : Except Failure (Result Float)}
    (ends : (tilted (1.0 / 0.0)).Ends (Session.fresh.seeded (tilted (1.0 / 0.0))) methods options
      ended) : ended = .error .infiniteAngle := by
  cases ends with
  | infiniteAngle => rfl
  | noStep make => cases make_eq.symm.trans make
  | noSingularValues make => cases make_eq.symm.trans make
  | told _ make => cases make_eq.symm.trans make

end Tilted

/-! ### Solves with doubles -/

theorem Doubles.isUsable_options : Doubles.options.isUsable = true := by decide +kernel

/-- With doubles, an undefined height is told as data, and an infinite angle is not. -/
theorem ends_of_solve_hazy :
    Doubles.methods.Strict ∧ Doubles.options.isUsable = true ∧
    (∃ result report, (Session.fresh.solve Doubles.numerals Doubles.methods Doubles.options
        (Hazy.sketch Hazy.height) none).2 = .ok result ∧
      result.islands[0]? = some report ∧ report.status = .unconverged) ∧
    (Session.fresh.solve Doubles.numerals Doubles.methods Doubles.options (tilted (1.0 / 0.0))
      none).2 = .error .infiniteAngle := by
  have strict : Doubles.methods.Strict := Methods.strict_orthogonal
  have usable := Doubles.isUsable_options
  refine ⟨strict, usable, ?_, ?_⟩
  · apply Hazy.unconverged_of_ends
    exact ends_of_solve strict usable Session.fresh (Hazy.sketch Hazy.height)
  · apply Tilted.eq_of_ends
    exact ends_of_solve strict usable Session.fresh (tilted (1.0 / 0.0))

/-- **A document can ask for an infinite angle**, and nothing of it is solved: not a residual, but
the whole solve is lost. -/
theorem exists_infinite_angle :
    ∃ document, Document.decode Tilted.record = .ok document ∧ document.sketch.flaws = [] ∧
      Doubles.options.isUsable = true ∧
      document.sketch.solve Doubles.numerals Doubles.methods Doubles.options none =
        .error .infiniteAngle := by
  have usable := Doubles.isUsable_options
  exact ⟨_, Tilted.decoded, Tilted.flawless _, usable,
    Session.solve_of_make_eq_error usable Tilted.make_eq⟩

end PlaneSketch
