/-!
Log entries: who says what, and how much it matters.
-/

namespace PlaneSketch.Log

/-- How much an entry matters. -/
inductive Level
  | debug | info | error
  deriving Repr, DecidableEq

/-- The name of a level. -/
def Level.name : Level → String
  | debug => "DEBUG"
  | info => "INFO"
  | error => "ERROR"

/-- The weight of a level: entries below a threshold are not shown. -/
def Level.weight : Level → Nat
  | debug => 10
  | info => 20
  | error => 40

/-- The parts of the program that write to the log. -/
inductive Source
  | commandLine | document | validation | pool | equations | partition | descent | diagnosis
  | session
  deriving Repr, DecidableEq

/-- The name of a part in the log. -/
def Source.name : Source → String
  | commandLine => "sketchsolver.__main__"
  | document => "sketchsolver.serialization"
  | validation => "sketchsolver.validate"
  | pool => "sketchsolver.solver.pool"
  | equations => "sketchsolver.solver.equations"
  | partition => "sketchsolver.solver.partition"
  | descent => "sketchsolver.solver.solver_core"
  | diagnosis => "sketchsolver.solver.diagnostics"
  | session => "sketchsolver.solver.pipeline"

/-- An entry of the log. -/
structure Entry where
  level : Level
  source : Source
  message : String
  deriving Repr, DecidableEq

/-- The entry as a line. -/
def Entry.text (entry : Entry) : String :=
  s!"{entry.level.name}:{entry.source.name}:{entry.message}"

/-- The entries that matter enough. -/
def shown (threshold : Nat) (entries : List Entry) : List Entry :=
  entries.filter fun entry => threshold ≤ entry.level.weight

end PlaneSketch.Log
