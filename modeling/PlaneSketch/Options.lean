import PlaneSketch.Failure
import PlaneSketch.Scalar

/-!
Settings of the solver, and which settings it can run with.
-/

namespace PlaneSketch

/-- The settings of a solve. Numbers are of any ordered type: settings are checked as they were
written and used as scalars. -/
structure Options (ν : Type) where
  /-- residuals below this count as zero -/
  tolerance : ν
  /-- the most steps for one island -/
  maxIterations : Int
  initialDamping : ν
  minDamping : ν
  maxDamping : ν
  /-- the factor on the damping after a step that was rejected -/
  dampingUp : ν
  /-- the factor on the damping after a step that was accepted -/
  dampingDown : ν
  /-- steps below this, relative to the position, end the search -/
  stepTolerance : ν
  /-- singular values below this count as zero -/
  rankTolerance : ν
  /-- the weight of a drag against the constraints -/
  dragWeight : ν
  /-- how many islands may be solved at the same time -/
  workers : Int
  /-- leave islands that are not dragged where they are -/
  freezeUndragged : Bool
  deriving Repr, Inhabited

namespace Options

variable {ν μ : Type}

/-- The settings in numbers of another type. -/
def map (f : ν → μ) (o : Options ν) : Options μ where
  tolerance := f o.tolerance
  maxIterations := o.maxIterations
  initialDamping := f o.initialDamping
  minDamping := f o.minDamping
  maxDamping := f o.maxDamping
  dampingUp := f o.dampingUp
  dampingDown := f o.dampingDown
  stepTolerance := f o.stepTolerance
  rankTolerance := f o.rankTolerance
  dragWeight := f o.dragWeight
  workers := o.workers
  freezeUndragged := o.freezeUndragged

/-- The settings that hold when nothing else is said; `decimal m e` is the number `m * 10 ^ e`. -/
def standard (decimal : Nat → Int → ν) : Options ν where
  tolerance := decimal 1 (-9)
  maxIterations := 50
  initialDamping := decimal 1 (-6)
  minDamping := decimal 1 (-12)
  maxDamping := decimal 1 8
  dampingUp := decimal 10 0
  dampingDown := decimal 1 (-1)
  stepTolerance := decimal 1 (-12)
  rankTolerance := decimal 1 (-8)
  dragWeight := decimal 1 (-2)
  workers := 1
  freezeUndragged := true

/-- The value of a setting. -/
inductive Setting (ν : Type)
  | number (value : ν)
  | count (value : Int)
  | flag (value : Bool)

/-- All settings by name, in order. -/
def settings (o : Options ν) : List (String × Setting ν) := [
  ("tolerance", .number o.tolerance), ("max_iterations", .count o.maxIterations),
  ("initial_damping", .number o.initialDamping), ("min_damping", .number o.minDamping),
  ("max_damping", .number o.maxDamping), ("damping_up", .number o.dampingUp),
  ("damping_down", .number o.dampingDown), ("step_tolerance", .number o.stepTolerance),
  ("rank_tolerance", .number o.rankTolerance), ("drag_weight", .number o.dragWeight),
  ("workers", .count o.workers), ("freeze_undragged", .flag o.freezeUndragged)]

/-- The settings with one changed; none when there is no setting of this name and type. -/
def set? (o : Options ν) (name : String) (value : Setting ν) : Option (Options ν) :=
  match name, value with
  | "tolerance", .number v => some { o with tolerance := v }
  | "max_iterations", .count n => some { o with maxIterations := n }
  | "initial_damping", .number v => some { o with initialDamping := v }
  | "min_damping", .number v => some { o with minDamping := v }
  | "max_damping", .number v => some { o with maxDamping := v }
  | "damping_up", .number v => some { o with dampingUp := v }
  | "damping_down", .number v => some { o with dampingDown := v }
  | "step_tolerance", .number v => some { o with stepTolerance := v }
  | "rank_tolerance", .number v => some { o with rankTolerance := v }
  | "drag_weight", .number v => some { o with dragWeight := v }
  | "workers", .count n => some { o with workers := n }
  | "freeze_undragged", .flag b => some { o with freezeUndragged := b }
  | _, _ => none

/-- A setting that the solver cannot run with. -/
inductive Problem (ν : Type)
  | tolerance (got : ν)
  | maxIterations (got : Int)
  | damping (min initial max : ν)
  | dampingUp (got : ν)
  | dampingDown (got : ν)
  | stepTolerance (got : ν)
  | rankTolerance (got : ν)
  | dragWeight (got : ν)
  | workers (got : Int)
  deriving Repr

/-- A problem in words; `number` writes a setting. -/
def Problem.message (number : ν → String) : Problem ν → String
  | tolerance got => s!"tolerance must be positive, got {number got}"
  | maxIterations got => s!"max_iterations must not be negative, got {got}"
  | damping min initial max =>
    "damping must satisfy 0 < min_damping <= initial_damping <= max_damping, got " ++
      s!"{number min}, {number initial}, {number max}"
  | dampingUp got => s!"damping_up must exceed 1, got {number got}"
  | dampingDown got => s!"damping_down must lie in (0, 1), got {number got}"
  | stepTolerance got => s!"step_tolerance must not be negative, got {number got}"
  | rankTolerance got => s!"rank_tolerance must be positive, got {number got}"
  | dragWeight got => s!"drag_weight must be positive, got {number got}"
  | workers got => s!"workers must be at least 1, got {got}"

variable [Ordered ν]

/-- The problem, unless the condition holds. -/
def demand (holds : Bool) (problem : Problem ν) : List (Problem ν) :=
  if holds then [] else [problem]

/-- Every setting that the solver cannot run with. A step tolerance is refused only when it is
below zero, so that an undefined one passes. -/
def problems (o : Options ν) : List (Problem ν) :=
  demand (Ordered.lt 0 o.tolerance) (.tolerance o.tolerance) ++
  demand (decide (0 ≤ o.maxIterations)) (.maxIterations o.maxIterations) ++
  demand (Ordered.lt 0 o.minDamping && Ordered.le o.minDamping o.initialDamping &&
      Ordered.le o.initialDamping o.maxDamping)
    (.damping o.minDamping o.initialDamping o.maxDamping) ++
  demand (Ordered.lt 1 o.dampingUp) (.dampingUp o.dampingUp) ++
  demand (Ordered.lt 0 o.dampingDown && Ordered.lt o.dampingDown 1)
    (.dampingDown o.dampingDown) ++
  demand (!Ordered.lt o.stepTolerance 0) (.stepTolerance o.stepTolerance) ++
  demand (Ordered.lt 0 o.rankTolerance) (.rankTolerance o.rankTolerance) ++
  demand (Ordered.lt 0 o.dragWeight) (.dragWeight o.dragWeight) ++
  demand (decide (1 ≤ o.workers)) (.workers o.workers)

/-- Can the solver run with these settings? -/
def isUsable (o : Options ν) : Bool := o.problems.isEmpty

/-- The settings, unless there is a problem with them. -/
def check (number : ν → String) (o : Options ν) : Except Failure (Options ν) :=
  if o.isUsable then .ok o
  else .error (.unusableOptions (o.problems.map (Problem.message number)))

end Options

end PlaneSketch
