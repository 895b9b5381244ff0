import PlaneSketch.Assoc
import PlaneSketch.Closure
import PlaneSketch.Diagnosis
import PlaneSketch.Validation

/-!
What is to be done for one solve: the flaws, the islands, which flaw keeps which island from being
solved, and where a drag pulls.
-/

namespace PlaneSketch

/-- The plan of a solve. -/
structure Plan (α : Type) where
  flaws : List (Flaw α)
  pool : Pool α
  islands : List (Island α)
  /-- flaws with the number of the island that they keep from being solved -/
  faults : List (Nat × Flaw α)
  /-- flaws that touch no variable of any island -/
  orphans : List (Flaw α)
  dragging : Bool
  anchors : List Handle
  /-- islands with a free anchor, and where the mean of their free anchors goes -/
  targets : List (Nat × Vec2 α)

namespace Plan

variable {α : Type} [Scalar α]

/-- The constraints that have a flaw. -/
def flawedConstraints (flaws : List (Flaw α)) : List Handle := flaws.filterMap Flaw.constraint?

/-- The blocks of everything without a flaw, and the pool with the fixed points bound. -/
def compiled (sketch : Sketch α) (pool : Pool α) (flaws : List (Flaw α)) :
    Except Failure (Pool α × List (Block α)) :=
  sketch.compile pool (sketch.brokenFeatures flaws) (flawedConstraints flaws)

/-- The variables that a flaw touches. -/
def touched (sketch : Sketch α) (pool : Pool α) (flaw : Flaw α) : List Variable :=
  sketch.closure pool flaw.references

/-- The islands of a drawing with flaws: what a flaw touches stays together. -/
def islandsOf (sketch : Sketch α) (pool : Pool α) (blocks : List (Block α))
    (flaws : List (Flaw α)) : Except Failure (List (Island α)) :=
  partition pool blocks (flaws.map (touched sketch pool))

/-- The smallest of some numbers. -/
def least? : List Nat → Option Nat
  | [] => none
  | n :: rest => some (rest.foldl min n)

/-- The island that a flaw keeps from being solved: the first one with a free variable that it
touches, or else the first one with a bound variable. -/
def home? (pool : Pool α) (islands : List (Island α)) (unknowns : List Variable) : Option Nat :=
  let inIsland (free : Bool) :=
    (unknowns.filter fun v => pool.isFree v = free).filterMap (islandOf? islands)
  (least? (inIsland true)).or (least? (inIsland false))

/-- The flaws with the islands they belong to, and the flaws that belong to none. -/
def allocate (sketch : Sketch α) (pool : Pool α) (islands : List (Island α))
    (flaws : List (Flaw α)) : List (Nat × Flaw α) × List (Flaw α) :=
  let placed := flaws.map fun flaw => (home? pool islands (touched sketch pool flaw), flaw)
  (placed.filterMap fun (home, flaw) => home.map fun index => (index, flaw),
    (placed.filter fun pair => pair.1.isNone).map (·.2))

/-- The anchors of a drag and where it pulls them. A broken feature has none. -/
def dragged (sketch : Sketch α) (pool : Pool α) (islands : List (Island α))
    (broken : List Handle) (drag : Drag α) :
    Except Failure (List Handle × List (Nat × Vec2 α)) := do
  let _ ← sketch.liveFeature drag.feature
  if broken.contains drag.feature then return ([], [])
  let anchors ← sketch.dragAnchors drag.feature
  let targets ← dragTargets pool islands anchors drag.target
  return (anchors, targets)

/-- The plan for a drawing, from the values in a pool. -/
def make (sketch : Sketch α) (pool : Pool α) (drag : Option (Drag α)) :
    Except Failure (Plan α) := do
  let flaws := sketch.flaws
  let (pool, blocks) ← compiled sketch pool flaws
  let islands ← islandsOf sketch pool blocks flaws
  let (faults, orphans) := allocate sketch pool islands flaws
  let (anchors, targets) ← match drag with
    | none => .ok ([], [])
    | some drag => dragged sketch pool islands (sketch.brokenFeatures flaws) drag
  return { flaws, pool, islands, faults, orphans, dragging := drag.isSome, anchors, targets }

/-- The flaws that keep an island from being solved. -/
def faultsOf (plan : Plan α) (index : Nat) : List (Flaw α) :=
  (plan.faults.filter fun pair => pair.1 = index).map (·.2)

/-- The islands to be solved. -/
def sound (plan : Plan α) : List (Island α) :=
  plan.islands.filter fun island => (plan.faultsOf island.index).isEmpty

/-- Where the drag pulls an island. -/
def target? (plan : Plan α) (index : Nat) : Option (Vec2 α) := Assoc.find? index plan.targets

/-- Is an island left where it is? A drag may leave alone what it does not pull. -/
def isFrozen (plan : Plan α) (options : Options α) (index : Nat) : Bool :=
  plan.dragging && (plan.target? index).isNone && options.freezeUndragged

/-- The settings under which an island is solved: one left where it is takes no step. -/
def optionsFor (plan : Plan α) (options : Options α) (index : Nat) : Options α :=
  if plan.isFrozen options index then { options with maxIterations := 0 } else options

/-- The pull on an island. -/
def pull? (plan : Plan α) (options : Options α) (system : Equations α) (index : Nat) :
    Option (Pull α) :=
  match plan.target? index with
  | none => none
  | some target => system.pull? plan.anchors target options.dragWeight

end Plan

/-- An island with its equations and the attempt to solve them. -/
structure Trial (α : Type) where
  island : Island α
  system : Equations α
  attempt : Attempt α

namespace Plan

variable {α : Type} [Scalar α]

/-- The attempt to solve one island. -/
def trial (plan : Plan α) (methods : Methods α) (options : Options α) (island : Island α) :
    Except Failure (Trial α) := do
  let (system, start) ← Equations.ofIsland plan.pool island
  let pull := plan.pull? options system island.index
  let attempt := system.solve methods (plan.optionsFor options island.index) pull start
  return ⟨island, system, attempt⟩

/-- An island solved: its equations and the outcome. -/
structure Solved (α : Type) where
  island : Island α
  system : Equations α
  outcome : Outcome α

/-- The outcome of one island. -/
def solved (plan : Plan α) (methods : Methods α) (options : Options α) (island : Island α) :
    Except Failure (Solved α) := do
  let trial ← plan.trial methods options island
  let outcome ← trial.attempt.outcome
  return ⟨island, trial.system, outcome⟩

/-- The outcomes of all islands to be solved. -/
def solvedAll (plan : Plan α) (methods : Methods α) (options : Options α) :
    Except Failure (List (Solved α)) :=
  plan.sound.mapM (plan.solved methods options)

end Plan

end PlaneSketch
