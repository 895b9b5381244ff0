import PlaneSketch.CommandLine.Run

/-!
The command line program.
-/

namespace PlaneSketch.CommandLine

/-- What can be typed. -/
def usage : String :=
  "usage: sketchsolver [-h] [--log-level LEVEL] [--max-iterations N] [--tolerance T] " ++
    "[--drag IDX] [--to X,Y] [--workers N] [--json] [--strict] path"

/-- What is in the file at a path. -/
def readContent (path : String) : IO Content := do
  try
    let bytes ← IO.FS.readBinFile path
    match String.fromUTF8? bytes with
    | some text => return .text text
    | none => return .bytes
  catch
    | .noFileOrDirectory .. => return .unreadable .missing
    | .permissionDenied .. => return .unreadable .denied
    | .inappropriateType .. => return .unreadable .isDirectory
    | .invalidArgument .. => return .unreadable .nameTooLong
    | error => throw error

/-- Print what a run leaves and give its exit code. -/
def finish (outcome : Outcome) : IO UInt32 := do
  for entry in outcome.log do
    IO.eprintln entry.text
  for line in outcome.output do
    IO.println line
  match outcome.ending with
  | .done => return 0
  | .helped =>
    IO.println usage
    return 0
  | .failed => return 1
  | .refused error =>
    IO.eprintln usage
    IO.eprintln s!"sketchsolver: error: {error.message}"
    return 2
  | .broken _ =>
    IO.eprintln "sketchsolver: the run was broken off"
    return 1

end PlaneSketch.CommandLine

open PlaneSketch CommandLine in
/-- Solve the drawing in a file. -/
def main (texts : List String) : IO UInt32 := do
  match prepare texts with
  | .error ending => finish ⟨ending, [], []⟩
  | .ok job => finish (job.run Json.numberText "-" (← readContent (plainPath job.path)))
