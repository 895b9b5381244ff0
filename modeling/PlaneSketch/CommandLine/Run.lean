import PlaneSketch.CommandLine.Arguments
import PlaneSketch.CommandLine.FileAccess
import PlaneSketch.CommandLine.Verbosity
import PlaneSketch.Document.File
import PlaneSketch.Doubles
import PlaneSketch.Json.Printer
import PlaneSketch.Log.Solve

/-!
A run of the program as a function of the command line and of what is in the file.

The arguments come first, then the level of the log, then the settings: whatever is wrong with
them is found before the file is read.
-/

namespace PlaneSketch.CommandLine

/-- What the program breaks off at without a message of its own. -/
inductive Breakdown
  | logLevel (odd : OddLevel)
  /-- an option that cannot do without a value has none -/
  | valueless (flag : Flag)
  /-- the path holds a character that no path can hold -/
  | path
  /-- the file holds no text -/
  | bytes
  | document (error : Document.LoadError)
  | solve (failure : Failure)

/-- How a run ends. -/
inductive Ending
  | done
  /-- help was asked for and given -/
  | helped
  /-- the log says what went wrong -/
  | failed
  | refused (error : UsageError)
  | broken (breakdown : Breakdown)

/-- What a run leaves: how it ended, the lines that it printed, and its log. -/
structure Outcome where
  ending : Ending
  output : List String
  log : List Log.Entry

/-- A drag as it is asked for: either half may have been given without a value. -/
structure DragRequest where
  feature : Option Int
  target : Option (Vec2 Float)

/-- A run that is ready to read its file. -/
structure Job where
  /-- the path as it was given -/
  path : String
  threshold : Nat
  options : Options Number
  drag : Option DragRequest
  json : Bool
  strict : Bool

/-- The value of an option that cannot do without one once it is given. -/
def valueOr {β : Type} (flag : Flag) (usual : β) : Given β → Except Ending β
  | .absent => .ok usual
  | .empty => .error (.broken (.valueless flag))
  | .value given => .ok given

/-- The settings that are given, in place of the usual ones. -/
def optionsOf (given : Arguments) : Except Ending (Options Number) := do
  let usual := Doubles.options
  let workers ← valueOr .workers usual.workers given.workers
  let maxIterations ← valueOr .maxIterations usual.maxIterations given.maxIterations
  let tolerance ← match given.tolerance with
    | .absent => .ok usual.tolerance
    | .empty => .error (.broken (.valueless .tolerance))
    | .value x => .ok (Number.float x)
  return { usual with workers, maxIterations, tolerance }

/-- Half of a drag, when it is given. -/
def halfOf? {β : Type} : Given β → Option (Option β)
  | .absent => none
  | .empty => some none
  | .value given => some (some given)

/-- The drag that is given; both halves have to be there or none. -/
def dragOf (given : Arguments) : Except Ending (Option DragRequest) :=
  match halfOf? given.drag, halfOf? given.target with
  | some feature, some target => .ok (some ⟨feature, target⟩)
  | none, none => .ok none
  | _, _ => .error (.refused .halfADrag)

/-- The settings, when the solver can run with them. -/
def checked (options : Options Number) : Except Ending (Options Number) :=
  match options.check Number.text with
  | .ok options => .ok options
  | .error failure => .error (.refused (.unusable (failure.message?.getD "")))

/-- The path that is given; everything else has to be used up. -/
def pathOf (given : Arguments) : Except Ending String :=
  match given.path, given.leftOver with
  | none, _ => .error (.refused .pathMissing)
  | some path, [] => .ok path
  | some _, words => .error (.refused (.leftOver words))

/-- The end of a run whose arguments were not read to their end. -/
def Stop.ending : Stop → Ending
  | usage error => .refused error
  | help => .helped

/-- The job that a command line asks for. -/
def prepare (texts : List String) : Except Ending Job := do
  let given ← match Arguments.ofTexts texts with
    | .ok given => .ok given
    | .error stop => .error stop.ending
  let path ← pathOf given
  let threshold ← match threshold (← valueOr .logLevel "WARNING" given.logLevel) with
    | .ok weight => .ok weight
    | .error odd => .error (.broken (.logLevel odd))
  let drag ← dragOf given
  let options ← checked (← optionsOf given)
  return ⟨path, threshold, options, drag, given.json, given.strict⟩

/-- An entry of the command line itself. -/
def said (level : Log.Level) (message : String) : Log.Entry := ⟨level, .commandLine, message⟩

/-- What was read from a file. -/
def documentEntry (sketch : Sketch Float) : Log.Entry :=
  ⟨.info, .document, s!"Decoded sketch with {sketch.features.size} features, " ++
    s!"{sketch.constraints.size} constraints and {sketch.groups.length} groups"⟩

/-- The drawing in a file. Without one, there is a message or the program breaks off. -/
def drawing (path : String) (content : Content) :
    Except (Except Breakdown String) (Sketch Float) :=
  if path.contains '\x00' then .error (.error .path)
  else
    match content with
    | .unreadable obstacle => .error (.ok (obstacle.message (plainPath path)))
    | .bytes => .error (.error .bytes)
    | .text text =>
      match Document.ofText text with
      | .ok document => .ok document.sketch
      | .error error =>
        match error.message? (plainPath path) with
        | some message => .error (.ok message)
        | none => .error (.error (.document error))

/-- The lines that show a result, and what they end at before their time. -/
def Job.report (job : Job) (sketch : Sketch Float) (result : Result Float)
    (number : Float → String) : List String × Option Failure :=
  if job.json then ([result.json.pretty number 0], none) else result.lines sketch

/-- The end of a run that found a result. A strict run fails when an island is left unsolved. -/
def Job.conclude (job : Job) (result : Result Float) : Ending × List Log.Entry :=
  let unsolved := result.unsolved.length
  if job.strict && 0 < unsolved then
    (.failed, [said .error s!"{unsolved} island(s) conflicting or skipped"])
  else (.done, [])

/-- Why a drag goes nowhere. -/
def dragMessage (drag : Option (Drag Float)) (reason : String) : String :=
  let feature := match drag with
    | some drag => toString drag.feature.index
    | none => "None"
  s!"Cannot drag feature {feature}: {reason}"

/-- The drag that is asked for, on a given drawing. Without a feature there is none. Without a
target there is one only where the target does not matter: when the feature does not exist or
cannot be pulled. -/
def DragRequest.on (request : DragRequest) (sketch : Sketch Float) :
    Except Flag (Drag Float) :=
  match request.feature, request.target with
  | none, _ => .error .drag
  | some index, some target => .ok ⟨Handle.first index, target⟩
  | some index, none =>
    let feature := Handle.first index
    if sketch.isLive feature && !(sketch.brokenFeatures sketch.flaws).contains feature then
      .error .target
    else .ok ⟨feature, ⟨0.0, 0.0⟩⟩

/-- The drag of a job on a drawing. -/
def Job.dragOn (job : Job) (sketch : Sketch Float) : Except Flag (Option (Drag Float)) :=
  match job.drag with
  | none => .ok none
  | some request => some <$> request.on sketch

/-- Solve a drawing and show the result. -/
def Job.solve (job : Job) (number : Float → String) (sketch : Sketch Float)
    (drag : Option (Drag Float)) : Outcome :=
  match sketch.solve Doubles.numerals Doubles.methods job.options drag with
  | .ok result =>
    match job.report sketch result number with
    | (output, some failure) => ⟨.broken (.solve failure), output, []⟩
    | (output, none) =>
      let (ending, entries) := job.conclude result
      ⟨ending, output, entries⟩
  | .error failure =>
    match failure.message? with
    | some reason =>
      if failure.isLookup then ⟨.failed, [], [said .error (dragMessage drag reason)]⟩
      else ⟨.broken (.solve failure), [], []⟩
    | none => ⟨.broken (.solve failure), [], []⟩

/-- Break off at a drag that lacks a value, unless the drawing cannot be prepared at all. -/
def breakOff (sketch : Sketch Float) (flag : Flag) : Outcome :=
  match Plan.make sketch (Pool.ofSketch sketch) none with
  | .ok _ => ⟨.broken (.valueless flag), [], []⟩
  | .error failure => ⟨.broken (.solve failure), [], []⟩

/-- Do a job on a drawing, and log as much of it as is shown. -/
def Job.runOn (job : Job) (number : Float → String) (elapsed : String) (sketch : Sketch Float) :
    Outcome :=
  let logged (log : List Log.Entry) : List Log.Entry :=
    if job.threshold ≤ Log.Level.info.weight then log else []
  let (log, outcome) := match job.dragOn sketch with
    | .ok drag =>
      (logged (Log.ofSolve Doubles.methods job.options sketch drag elapsed),
        job.solve number sketch drag)
    | .error flag => (logged (Log.ofPreparation sketch), breakOff sketch flag)
  { outcome with log := log ++ outcome.log }

/-- Do a job on what is in its file. `number` writes the numbers of a JSON report; `elapsed` is
the duration of calls in the log. -/
def Job.run (job : Job) (number : Float → String) (elapsed : String) (content : Content) :
    Outcome :=
  let loading := said .info s!"Loading sketch from {job.path}"
  let whole : Outcome := match drawing job.path content with
    | .error (.ok message) =>
      ⟨.failed, [], [loading, said .error s!"Cannot load {job.path}: {message}"]⟩
    | .error (.error breakdown) => ⟨.broken breakdown, [], [loading]⟩
    | .ok sketch =>
      let outcome := job.runOn number elapsed sketch
      { outcome with log := [loading, documentEntry sketch] ++ outcome.log }
  { whole with log := Log.shown job.threshold whole.log }

/-- A run on given arguments, with a way to read files. -/
def run (read : String → Content) (number : Float → String) (elapsed : String)
    (texts : List String) : Outcome :=
  match prepare texts with
  | .error ending => ⟨ending, [], []⟩
  | .ok job => job.run number elapsed (read (plainPath job.path))

end PlaneSketch.CommandLine
