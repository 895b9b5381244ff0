import PlaneSketch.Decimal.Format
import PlaneSketch.Json.Value
import PlaneSketch.Report
import PlaneSketch.Scalar.Double
import PlaneSketch.Sketch

/-!
Results as people and other programs read them: lines of text, or one JSON value in which features
and constraints are named by their places.
-/

namespace PlaneSketch

/-- An amount in a message. -/
def amountText (x : Float) : String := Decimal.general 6 x

/-- The size of a residual. -/
def residualText (x : Float) : String := Decimal.scientific 3 x

/-- A flaw in words. -/
def Flaw.text (flaw : Flaw Float) : String := flaw.message amountText

namespace Report

/-! ### JSON -/

/-- Handles by their places. -/
def placesJson (handles : List Handle) : Json := .array (handles.map fun h => .int h.index)

/-- Flaws in words. -/
def flawsJson (flaws : List (Flaw Float)) : Json := .array (flaws.map fun f => .string f.text)

/-- The report on an island as a JSON value. -/
def json (r : Report Float) : Json :=
  let classification := match r.classification with
    | some c => .string c.name
    | none => .null
  .object [("index", .int r.index), ("status", .string r.status.name),
    ("classification", classification), ("free_variables", .int r.freeVariables),
    ("equations", .int r.equations), ("rank", .int r.rank), ("dof", .int r.dof),
    ("iterations", .int r.iterations), ("max_residual", .float r.maxResidual),
    ("constraints", placesJson r.constraints), ("redundant", placesJson r.redundant),
    ("conflicting", placesJson r.conflicting), ("errors", flawsJson r.flaws)]

/-! ### Text -/

/-- A line that names some constraints; none when there are none. -/
def namesLine (title : String) (handles : List Handle) : List String :=
  if handles.isEmpty then []
  else [s!"    {title}: " ++ String.intercalate ", " (handles.map Handle.text)]

/-- The report on an island as lines. -/
def lines (r : Report Float) : List String :=
  let classification := match r.classification with
    | some c => c.name
    | none => "-"
  (s!"  [{r.index}] {r.status.name} ({classification}) dof={r.dof} rank={r.rank} " ++
      s!"iterations={r.iterations} max_residual={residualText r.maxResidual}") ::
    namesLine "redundant" r.redundant ++ namesLine "conflicting" r.conflicting ++
    r.flaws.map fun f => "    error: " ++ f.text

end Report

namespace Result

/-- The values found, by place of the feature and by component. -/
def valuesJson (values : List (Variable × Float)) : Json :=
  let sorted := values.mergeSort fun a b => a.1.precedes b.1
  let places := firstOccurrences (sorted.map fun pair => pair.1.handle.index)
  .object (places.map fun place =>
    let members := sorted.filter fun pair => pair.1.handle.index = place
    (toString place, .object (Assoc.ofPairs (members.map fun (v, x) =>
      (v.component.name, Json.float x)))))

/-- The result as a JSON value. -/
def json (result : Result Float) : Json :=
  .object [("success", .bool result.success), ("islands", .array (result.islands.map Report.json)),
    ("variables", valuesJson result.updated), ("structural_errors", Report.flawsJson result.flaws)]

/-- The lines of some points, as far as their positions were found. A point of which only the
first coordinate was found ends them. -/
def pointLines (result : Result Float) : List Handle → List String × Option Failure
  | [] => ([], none)
  | h :: rest =>
    if (result.value? ⟨h, .x⟩).isNone then result.pointLines rest
    else
      match result.point h with
      | .error failure => ([], some failure)
      | .ok p =>
        let (lines, failure) := result.pointLines rest
        (s!"  {h.text}: ({Decimal.fixed 6 p.x}, {Decimal.fixed 6 p.y})" :: lines, failure)

/-- The result as lines, with the positions of the points of the drawing, up to a position of which
only half was found. -/
def lines (result : Result Float) (sketch : Sketch Float) : List String × Option Failure :=
  let points := sketch.features.items.filter fun item => item.2.kind = .point
  let (positions, failure) := result.pointLines (points.map (·.1))
  (["Success: " ++ (if result.success then "True" else "False"), "Islands:"] ++
    result.islands.flatMap Report.lines ++ ["Points:"] ++ positions, failure)

end Result

end PlaneSketch
