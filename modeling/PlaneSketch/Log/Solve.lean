import PlaneSketch.Describe.Solve
import PlaneSketch.Log
import PlaneSketch.Log.Call
import PlaneSketch.Report.Printer
import PlaneSketch.Session

/-!
The log of a solve.

The entries follow the stages of a solve and end where the solve fails. They are worked out from
the stages themselves, so that what is solved does not depend on what is logged.
-/

namespace PlaneSketch.Log

/-- What validation found. -/
def ofFlaws (flaws : List (Flaw Float)) : List Entry :=
  if flaws.isEmpty then []
  else
    ⟨.info, .validation, s!"Structural validation found {flaws.length} problem(s)"⟩ ::
      flaws.map fun flaw => ⟨.debug, .validation, "  " ++ flaw.text⟩

/-- How many unknowns a drawing has. -/
def ofPool (sketch : Sketch Float) (pool : Pool Float) : Entry :=
  ⟨.debug, .pool,
    s!"Registered {pool.keys.length} variables from {sketch.features.size} features"⟩

/-- A point that a constraint fixes. -/
def ofBinding (point : Handle) (position : Vec2 Float) (constraint : Handle) : Entry :=
  ⟨.debug, .pool,
    s!"Bound point {point} to ({amountText position.x}, {amountText position.y}) " ++
      s!"via constraint {constraint}"⟩

/-- The points that constraints fix, up to the first constraint that cannot be compiled. -/
def ofBindings (sketch : Sketch Float) (pool : Pool Float) :
    List (Handle × Constraint Float) → List Entry
  | [] => []
  | (h, constraint) :: rest =>
    match sketch.compileConstraint pool h constraint with
    | .error _ => []
    | .ok (after, blocks) =>
      let fixed := if blocks.isEmpty then constraint.references.take 1 else []
      fixed.map (ofBinding · constraint.position h) ++ ofBindings sketch after rest

/-- What was compiled. -/
def ofBlocks (pool : Pool Float) (blocks : List (Block Float)) : Entry :=
  let rows := total (blocks.map Block.rows)
  ⟨.info, .equations, s!"Compiled {blocks.length} residual blocks ({rows} rows) over " ++
    s!"{pool.freeKeys.length} free variables"⟩

/-- How the unknowns fall apart. -/
def ofIslands (pool : Pool Float) (islands : List (Island Float)) : Entry :=
  ⟨.info, .partition, s!"Partitioned {pool.freeKeys.length} free variables into " ++
    s!"{islands.length} islands ({islands.countP Island.isPinned} pinned)"⟩

/-- From validation to the islands. -/
def ofPreparation (sketch : Sketch Float) : List Entry :=
  let flaws := sketch.flaws
  let pool := Pool.ofSketch sketch
  let flawed := Plan.flawedConstraints flaws
  let constraints := sketch.constraints.items.filter fun item => !flawed.contains item.1
  let compiled := match Plan.compiled sketch pool flaws with
    | .error _ => []
    | .ok (pool, blocks) =>
      ofBlocks pool blocks :: match Plan.islandsOf sketch pool blocks flaws with
        | .error _ => []
        | .ok islands => [ofIslands pool islands]
  ofFlaws flaws ++ ofPool sketch pool :: ofBindings sketch pool constraints ++ compiled

/-! ### Solving an island -/

/-- A cost; one that cannot be evaluated counts as infinite. -/
def costText (cost : Option Float) : String := (cost.map residualText).getD "inf"

/-- A damping. -/
def dampingText (damping : Float) : String := "lambda=" ++ Decimal.scientific 1 damping

/-- A step of a descent. -/
def ofEvent (event : Descent.Event Float) : Entry :=
  ⟨.debug, .descent, match event with
    | .tooShort iteration length =>
      s!"iteration {iteration}: step {Decimal.general 3 length} below tolerance"
    | .accepted iteration cost damping =>
      s!"iteration {iteration}: accepted, cost={residualText cost} " ++ dampingText damping
    | .rejected iteration cost damping =>
      s!"iteration {iteration}: rejected, cost={costText cost} " ++ dampingText damping⟩

/-- An entry about a call of the solver. -/
def call (message : String) : Entry := ⟨.debug, .descent, message⟩

/-- The summary of an outcome. -/
def ofOutcome (system : Equations Float) (outcome : Outcome Float) : Entry :=
  call (s!"solve_system: {system.free.length} vars, {system.rows} rows, " ++
    s!"{outcome.iterations} iterations, max residual {residualText outcome.maxResidual}")

/-- The call that solves an island of a plan. -/
def islandCall (plan : Plan Float) (options : Options Number) (island : Island Float)
    (values : List (Variable × Float)) : Entry :=
  let target := plan.target? island.index
  let anchors := match target with
    | some _ => Shown.list (plan.anchors.map .handle)
    | none => .tuple []
  let iterate := !plan.dragging || target.isSome || !options.freezeUndragged
  call (entered "solve_island" [
    .plain (.ofIsland island), .plain (.ofValues (Assoc.ofPairs values)),
    .plain (.ofOptions options), .named "anchors" anchors,
    .named "target" (.ofOption .ofPoint target), .named "iterate" (.truth iterate)])

/-- The call that solves the equations of an island: one left where it is takes no step and is
not pulled. -/
def systemCall (plan : Plan Float) (options : Options Number) (island : Island Float)
    (system : Equations Float) (start : List Float) : Entry :=
  let frozen := plan.isFrozen (options.map Number.toFloat) island.index
  let used := if frozen then { options with maxIterations := 0 } else options
  let pull := plan.pull? (options.map Number.toFloat) system island.index
  let arguments := [Argument.plain (.ofEquations system), .plain (.ofPosition start),
    .plain (.ofOptions used)]
  call (entered "solve_system"
    (if frozen then arguments else arguments ++ [.named "soft" (.ofOption .ofPull pull)]))

/-- The end of the calls that solve an island. -/
def ofEnd (system : Equations Float) (elapsed : String) :
    Except Failure (Outcome Float) → List Entry
  | .ok outcome => [ofOutcome system outcome,
      call (returned "solve_system" (.ofOutcome outcome) elapsed),
      call (returned "solve_island" (.tuple [.ofEquations system, .ofOutcome outcome]) elapsed)]
  | .error _ => [call (interrupted "solve_system" elapsed),
      call (interrupted "solve_island" elapsed)]

/-- The attempt to solve an island of a plan. -/
def ofTrial (plan : Plan Float) (methods : Methods Float) (options : Options Number)
    (elapsed : String) (island : Island Float) : List Entry :=
  match islandValues plan.pool island, plan.trial methods (options.map Number.toFloat) island with
  | .ok values, .ok trial =>
    let start := island.unknowns.map plan.pool.valuation
    [islandCall plan options island values, systemCall plan options island trial.system start] ++
      trial.attempt.events.map ofEvent ++ ofEnd trial.system elapsed trial.attempt.outcome
  | _, _ => []

/-- Does the attempt to solve an island give an outcome? -/
def succeeds (plan : Plan Float) (methods : Methods Float) (options : Options Number)
    (island : Island Float) : Bool :=
  (plan.solved methods (options.map Number.toFloat) island).isOk

/-- The islands that are tried: all of them when several are solved at a time, else those up to
the first one that fails. -/
def tried (plan : Plan Float) (methods : Methods Float) (options : Options Number) :
    List (Island Float) :=
  let sound := plan.sound
  if 1 < options.workers then sound
  else
    let succeeding := sound.takeWhile (succeeds plan methods options)
    sound.take (succeeding.length + 1)

/-! ### Reports -/

/-- The diagnosis of an island and its report. -/
def ofDiagnosis (island : Island Float) (system : Equations Float) (outcome : Outcome Float)
    (d : Diagnosis) : List Entry :=
  let free := system.free.length
  [⟨.debug, .diagnosis, s!"diagnose: F={free} R={d.rank} C={system.rows} dof={d.dof} " ++
      s!"dependent={Shown.columnsText d.dependent} status={d.status.name}"⟩,
    ⟨.info, .session, s!"Island {island.index}: {d.status.name} (F={free}, C={system.rows}, " ++
      s!"rank={d.rank}, dof={d.dof}, iterations={outcome.iterations}, " ++
      s!"max residual {residualText outcome.maxResidual})"⟩]

/-- An island that flaws keep from being solved. -/
def ofSkipped (index : Nat) (flaws : List (Flaw Float)) : Entry :=
  let reasons := String.intercalate "; " (flaws.map Flaw.text)
  ⟨.info, .session, s!"Island {index}: skipped ({reasons})"⟩

/-- The reports on some islands and then on the flaws that belong to none, up to the first island
that cannot be diagnosed. -/
def ofReports (plan : Plan Float) (methods : Methods Float) (options : Options Float)
    (solved : List (Plan.Solved Float)) : List (Island Float) → List Entry
  | [] => plan.orphans.zipIdx.map fun (flaw, i) => ofSkipped (plan.islands.length + i) [flaw]
  | island :: rest =>
    let flaws := plan.faultsOf island.index
    if flaws.isEmpty then
      match solved.find? fun s => s.island.index = island.index with
      | none => []
      | some s =>
        match diagnose methods options plan.pool s.system s.outcome with
        | .error _ => []
        | .ok d =>
          ofDiagnosis island s.system s.outcome d ++ ofReports plan methods options solved rest
    else ofSkipped island.index flaws :: ofReports plan methods options solved rest

/-- Everything logged about a solve with settings that were checked; `elapsed` stands for the
duration of every call. -/
def ofSolve (methods : Methods Float) (options : Options Number) (sketch : Sketch Float)
    (drag : Option (Drag Float)) (elapsed : String) : List Entry :=
  let used := options.map Number.toFloat
  let solving := match Plan.make sketch (Pool.ofSketch sketch) drag with
    | .error _ => []
    | .ok plan =>
      (tried plan methods options).flatMap (ofTrial plan methods options elapsed) ++
        match plan.solvedAll methods used with
        | .error _ => []
        | .ok solved => ofReports plan methods used solved plan.islands
  ofPreparation sketch ++ solving

end PlaneSketch.Log
