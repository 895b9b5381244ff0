import PlaneSketch.Plan
import PlaneSketch.Report

/-!
Solving drawings again and again.

A session remembers the last position of every variable and starts the next solve from there. It
remembers the positions of an island as soon as that island is diagnosed.
-/

namespace PlaneSketch

/-- What is remembered between solves. -/
structure Session (α : Type) where
  cache : List (Variable × α)
  deriving Repr

/-- How settings are written, and which scalars they stand for. -/
structure Numerals (ν α : Type) where
  value : ν → α
  text : ν → String

namespace Session

variable {α : Type} [Scalar α]

/-- Nothing remembered. -/
def fresh : Session α := ⟨[]⟩

/-- Forget everything. -/
def forget (_ : Session α) : Session α := fresh

/-- Forget the variables of some features. -/
def forgetFeatures (session : Session α) (handles : List Handle) : Session α :=
  ⟨session.cache.filter fun pair => !handles.contains pair.1.handle⟩

/-- Forget variables that are not registered. -/
def prune (session : Session α) (pool : Pool α) : Session α :=
  ⟨session.cache.filter fun pair => pool.contains pair.1⟩

/-- Is a variable remembered? -/
def remembers (session : Session α) (v : Variable) : Bool :=
  (Assoc.find? v session.cache).isSome

/-- Results gathered so far: the pool with the positions found, what is remembered, the values
found and the reports. -/
structure Gathered (α : Type) where
  pool : Pool α
  session : Session α
  updated : List (Variable × α)
  reports : List (Report α)

/-- Take in the outcome of one island. -/
def Gathered.take (warm : Session α) (gathered : Gathered α) (solved : Plan.Solved α)
    (diagnosis : Diagnosis) : Gathered α :=
  let island := solved.island
  let pool := (gathered.pool.scatter island.unknowns solved.outcome.x).1
  let found (unknowns : List Variable) := unknowns.map fun v => (v, pool.valuation v)
  let report := Report.ofDiagnosis island solved.system.rows solved.outcome diagnosis
    (island.unknowns.any warm.remembers)
  { pool
    session := ⟨Assoc.putAll gathered.session.cache (found island.unknowns)⟩
    updated := Assoc.putAll gathered.updated (found island.members)
    reports := gathered.reports ++ [report] }

/-- Take in an island that was not solved. -/
def Gathered.skip (gathered : Gathered α) (island : Island α) (flaws : List (Flaw α)) :
    Gathered α :=
  { gathered with reports := gathered.reports ++ [Report.skipped island flaws] }

/-- Diagnose the islands in order and gather the results, up to the first failure. -/
def gather (methods : Methods α) (options : Options α) (plan : Plan α) (warm : Session α)
    (solved : List (Plan.Solved α)) : List (Island α) → Gathered α → Gathered α × Option Failure
  | [], gathered => (gathered, none)
  | island :: rest, gathered =>
    let flaws := plan.faultsOf island.index
    if flaws.isEmpty then
      match solved.find? fun s => s.island.index = island.index with
      | none => (gathered, some .missingIsland)
      | some s =>
        match diagnose methods options gathered.pool s.system s.outcome with
        | .error failure => (gathered, some failure)
        | .ok diagnosis =>
          gather methods options plan warm solved rest (gathered.take warm s diagnosis)
    else gather methods options plan warm solved rest (gathered.skip island flaws)

/-- A report for each flaw that belongs to no island. -/
def addOrphans (orphans : List (Flaw α)) (gathered : Gathered α) : Gathered α :=
  orphans.foldl (fun gathered flaw =>
    gathered.skip ⟨gathered.reports.length, [], [], []⟩ [flaw]) gathered

/-- Bound variables in no island keep the values that they are bound to. -/
def addBound (islands : List (Island α)) (gathered : Gathered α) : Gathered α :=
  let outside := gathered.pool.keys.filter fun v =>
    (PlaneSketch.islandOf? islands v).isNone && !gathered.pool.isFree v
  { gathered with
    updated := Assoc.putAll gathered.updated
      (outside.map fun v => (v, gathered.pool.valuation v)) }

/-- Carry out a plan. What was diagnosed before a failure is remembered. -/
def carryOut (session : Session α) (methods : Methods α) (options : Options α) (plan : Plan α) :
    Session α × Except Failure (Result α) :=
  match plan.solvedAll methods options with
  | .error failure => (session, .error failure)
  | .ok solved =>
    match gather methods options plan session solved plan.islands ⟨plan.pool, session, [], []⟩ with
    | (gathered, some failure) => (gathered.session, .error failure)
    | (gathered, none) =>
      let final := addBound plan.islands (addOrphans plan.orphans gathered)
      (final.session, .ok ⟨final.updated, final.reports, plan.flaws⟩)

/-- Solve a drawing with settings known to be usable. -/
def solveWith (session : Session α) (methods : Methods α) (options : Options α)
    (sketch : Sketch α) (drag : Option (Drag α)) : Session α × Except Failure (Result α) :=
  let pool := Pool.ofSketch sketch
  let warm := session.prune pool
  match Plan.make sketch (pool.seed warm.cache).1 drag with
  | .error failure => (warm, .error failure)
  | .ok plan => warm.carryOut methods options plan

/-- Solve a drawing from the positions remembered, or else from those drawn. -/
def solve {ν : Type} [Ordered ν] (numerals : Numerals ν α) (session : Session α)
    (methods : Methods α) (options : Options ν) (sketch : Sketch α) (drag : Option (Drag α)) :
    Session α × Except Failure (Result α) :=
  match options.check numerals.text with
  | .error failure => (session, .error failure)
  | .ok checked => session.solveWith methods (checked.map numerals.value) sketch drag

end Session

/-- Solve a drawing once, with nothing remembered. -/
def Sketch.solve {α ν : Type} [Scalar α] [Ordered ν] (numerals : Numerals ν α)
    (methods : Methods α) (options : Options ν) (sketch : Sketch α) (drag : Option (Drag α)) :
    Except Failure (Result α) :=
  (Session.fresh.solve numerals methods options sketch drag).2

end PlaneSketch
