import PlaneSketch.Drag
import PlaneSketch.LinearAlgebra.Methods
import PlaneSketch.Options

/-!
Damped least-squares descent.

From a position, a step solves the linearised equations with a penalty on its length. A step that
lowers the sum of squares is taken and the penalty lowered; any other step is refused and the
penalty raised. The best position seen is the present one at all times.
-/

namespace PlaneSketch

namespace Descent

/-- Equations to be brought to zero. -/
structure Problem (α : Type) where
  residuals : List α → List α
  jacobian : List α → Matrix α

/-- A position with its residuals, their sum of squares, and the damping of the next step. -/
structure Position (α : Type) where
  x : List α
  residuals : List α
  cost : α
  damping : α
  deriving Repr

/-- What happened in one step. -/
inductive Event (α : Type)
  /-- the step was too short to matter, or undefined -/
  | tooShort (iteration : Nat) (length : α)
  | accepted (iteration : Nat) (cost damping : α)
  /-- the step did not lower the cost, or led to where there is none -/
  | rejected (iteration : Nat) (cost : Option α) (damping : α)
  deriving Repr

/-- The end of a descent: the position reached, the number of steps tried, what happened, and why
it was cut short, if it was. -/
structure Trail (α : Type) where
  x : List α
  steps : Nat
  events : List (Event α)
  failure : Option Failure
  deriving Repr

variable {α : Type} [Scalar α]

/-- Sum of squares, each square added in one step: which of two positions is better can hang on
the last bit. -/
def cost (residuals : List α) : α :=
  residuals.foldl (fun sum r => Scalar.multiplyAdd r r sum) 0

/-- The start of a descent. -/
def start (problem : Problem α) (damping : α) (x : List α) : Position α :=
  let residuals := problem.residuals x
  ⟨x, residuals, cost residuals, damping⟩

/-- The equations of a step: the linearised residuals, and the step itself times the root of the
damping. -/
def stepSystem (jacobian : Matrix α) (residuals : List α) (damping : α) (width : Nat) :
    Matrix α × List α :=
  let penalty := (List.range width).map fun i =>
    (Vector.unit width i).map (Scalar.sqrt damping * ·)
  (jacobian ++ penalty, residuals.map (- ·) ++ List.replicate width 0)

/-- The step from a position. -/
def step? (methods : Methods α) (problem : Problem α) (p : Position α) : Option (List α) :=
  let width := p.x.length
  let (rows, target) := stepSystem (problem.jacobian p.x) p.residuals p.damping width
  methods.leastSquares? width rows target

/-- Is the step undefined or too short to matter? -/
def isTooShort (options : Options α) (x : List α) (length : α) : Bool :=
  !Scalar.isFinite length || Ordered.le length (options.stepTolerance * (1 + Vector.norm x))

/-- The cost of residuals, when they can be evaluated. -/
def cost? (residuals : List α) : Option α :=
  if Vector.isUsable residuals then some (cost residuals) else none

/-- Is there a cost, and is it lower than another? -/
def improves (candidate : Option α) (present : α) : Bool :=
  match candidate with
  | some value => Ordered.lt value present
  | none => false

/-- Go on from a position for at most `budget` steps; `taken` were taken before. The descent ends
early once the residuals are below `target`, when there is a target. -/
def run (methods : Methods α) (options : Options α) (problem : Problem α) (target : Option α) :
    Nat → Nat → Position α → Trail α
  | 0, taken, p => ⟨p.x, taken, [], none⟩
  | budget + 1, taken, p =>
    if (target.map fun t => Ordered.lt (Vector.maxAbs p.residuals) t).getD false then
      ⟨p.x, taken, [], none⟩
    else
      match step? methods problem p with
      | none => ⟨p.x, taken, [], some .noStep⟩
      | some delta =>
        let iteration := taken + 1
        let length := Vector.norm delta
        if isTooShort options p.x length then
          ⟨p.x, iteration, [.tooShort iteration length], none⟩
        else
          let x := Vector.add p.x delta
          let residuals := problem.residuals x
          let candidate := cost? residuals
          if improves candidate p.cost then
            let lowered := Scalar.raise (p.damping * options.dampingDown) options.minDamping
            let next : Position α := ⟨x, residuals, candidate.getD p.cost, lowered⟩
            let trail := run methods options problem target budget iteration next
            { trail with events := .accepted iteration next.cost lowered :: trail.events }
          else
            let raised := p.damping * options.dampingUp
            let event := Event.rejected iteration candidate raised
            if Ordered.lt options.maxDamping raised then
              ⟨p.x, iteration, [event], none⟩
            else
              let trail := run methods options problem target budget iteration
                { p with damping := raised }
              { trail with events := event :: trail.events }

/-- The hard equations of a system. -/
def Problem.hard (system : Equations α) : Problem α := ⟨system.residuals, system.jacobian⟩

/-- The equations of a system together with a pull. -/
def Problem.pulled (system : Equations α) (pull : Pull α) : Problem α where
  residuals x := system.residuals x ++ pull.residuals x
  jacobian x := system.jacobian x ++ pull.jacobian x.length

/-- Descend on the hard equations until they hold. -/
def hard (methods : Methods α) (options : Options α) (system : Equations α) (x : List α) :
    Trail α :=
  let problem := Problem.hard system
  run methods options problem (some options.tolerance) options.maxIterations.toNat 0
    (start problem options.initialDamping x)

/-- Move the pulled columns to the target and descend on all equations, with half the steps. -/
def pulled (methods : Methods α) (options : Options α) (system : Equations α) (pull : Pull α)
    (x : List α) : Trail α :=
  let problem := Problem.pulled system pull
  let budget := max 1 (options.maxIterations.toNat / 2)
  run methods options problem none budget 0
    (start problem options.initialDamping (pull.recenter x))

end Descent

end PlaneSketch
