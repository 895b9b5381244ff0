import PlaneSketch.Descent

/-!
Solving the equations of one island.

With a pull, the pulled variables go to the target first and are solved for together with the
constraints; a second descent then restores the constraints alone.
-/

namespace PlaneSketch

/-- Where the solver left a system. -/
structure Outcome (α : Type) where
  x : List α
  iterations : Nat
  converged : Bool
  maxResidual : α
  residuals : List α
  jacobian : Matrix α
  deriving Repr

/-- A solve with what happened on the way. -/
structure Attempt (α : Type) where
  events : List (Descent.Event α)
  outcome : Except Failure (Outcome α)

namespace Equations

variable {α : Type} [Scalar α]

/-- The outcome of stopping at a position. -/
def outcomeAt (system : Equations α) (options : Options α) (x : List α) (iterations : Nat) :
    Outcome α :=
  let residuals := system.residuals x
  let worst := Vector.maxAbs residuals
  { x, iterations
    converged := Vector.isUsable residuals && Ordered.lt worst options.tolerance
    maxResidual := worst
    residuals
    jacobian := system.jacobian x }

/-- The end of an attempt: the outcome where a descent ended, unless it was cut short. -/
def conclude (system : Equations α) (options : Options α) (before : Nat)
    (events : List (Descent.Event α)) (trail : Descent.Trail α) : Attempt α where
  events := events ++ trail.events
  outcome := match trail.failure with
    | some failure => .error failure
    | none => .ok (system.outcomeAt options trail.x (before + trail.steps))

/-- Solve a system from a start, with or without a pull. A system without rows or without free
variables is only evaluated. -/
def solve (methods : Methods α) (options : Options α) (system : Equations α)
    (pull : Option (Pull α)) (x : List α) : Attempt α :=
  if system.free.isEmpty || system.rows = 0 then
    let x := match pull with
      | some pull => pull.recenter x
      | none => x
    ⟨[], .ok (system.outcomeAt options x 0)⟩
  else
    match pull with
    | none => system.conclude options 0 [] (Descent.hard methods options system x)
    | some pull =>
      let joint := Descent.pulled methods options system pull x
      match joint.failure with
      | some failure => ⟨joint.events, .error failure⟩
      | none =>
        system.conclude options joint.steps joint.events
          (Descent.hard methods options system joint.x)

end Equations

end PlaneSketch
