import PlaneSketch.Describe
import PlaneSketch.Number
import PlaneSketch.Outcome
import PlaneSketch.Scalar.Double

/-!
What a solve works with, as logs show it.
-/

namespace PlaneSketch.Shown

/-- A block. -/
def ofBlock (block : Block Float) : Shown := .block block.key block.rows

/-- An island. -/
def ofIsland (island : Island Float) : Shown :=
  .part "Island" island.unknowns.length island.rows

/-- The equations of an island. -/
def ofEquations (system : Equations Float) : Shown :=
  .part "IslandSystem" system.free.length system.rows

/-- A position in the space of the unknowns. -/
def ofPosition (x : List Float) : Shown := .floats [x.length] x

/-- A point of the plane. -/
def ofPoint (p : Vec2 Float) : Shown := .tuple [.number p.x, .number p.y]

/-- Values of variables. -/
def ofValues (values : List (Variable × Float)) : Shown :=
  .map (values.map fun (v, x) => (ofVariable v, .number x))

/-- A value, or its absence. -/
def ofOption {β : Type} (shown : β → Shown) : Option β → Shown
  | some value => shown value
  | none => absent

/-- Columns, in brackets. -/
def columnsText (columns : List Nat) : String :=
  "[" ++ String.intercalate ", " (columns.map fun (n : Nat) => toString n) ++ "]"

/-- A record with named fields. -/
def record (name : String) (fields : List (String × String)) : Shown :=
  .plain (name ++ "(" ++
    String.intercalate ", " (fields.map fun (field, value) => field ++ "=" ++ value) ++ ")")

/-- The value of a setting. -/
def settingText : Options.Setting Number → String
  | .number value => value.text
  | .count n => toString n
  | .flag b => (truth b).text

/-- The settings of a solve. -/
def ofOptions (o : Options Number) : Shown :=
  record "SolveOptions" (o.settings.map fun (name, value) => (name, settingText value))

/-- A pull. -/
def ofPull (pull : Pull Float) : Shown :=
  record "SoftTarget" [
    ("x_columns", columnsText pull.xColumns), ("y_columns", columnsText pull.yColumns),
    ("target", s!"({Decimal.exact pull.target.x}, {Decimal.exact pull.target.y})"),
    ("weight", Decimal.exact pull.weight)]

/-- An outcome. -/
def ofOutcome (outcome : Outcome Float) : Shown :=
  record "IslandOutcome" [
    ("x", (ofPosition outcome.x).text), ("iterations", toString outcome.iterations),
    ("converged", (truth outcome.converged).text),
    ("max_residual", Decimal.exact outcome.maxResidual)]

end PlaneSketch.Shown
