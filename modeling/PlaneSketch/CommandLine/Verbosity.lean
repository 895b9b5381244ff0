import PlaneSketch.Log

/-!
How much of the log is shown.
-/

namespace PlaneSketch.CommandLine

/-- A name that stands for something of the log other than a level. -/
inductive OddLevel
  /-- the layout of entries -/
  | layout
  /-- the table of layouts -/
  | layouts
  deriving Repr, DecidableEq

/-- The capitals of a letter, where those are ASCII letters. A ligature has one for each of its
parts. -/
def capital (c : Char) : List Char :=
  match c with
  | 'ı' => ['I']
  | 'ſ' => ['S']
  | 'ﬅ' | 'ﬆ' => ['S', 'T']
  | c => [c.toUpper]

/-- The least weight that is shown under a name. Names are read without regard to case, and one
that names nothing counts as `INFO`. -/
def threshold (name : String) : Except OddLevel Nat :=
  match String.ofList (name.toList.flatMap capital) with
  | "CRITICAL" | "FATAL" => .ok 50
  | "ERROR" => .ok Log.Level.error.weight
  | "WARNING" | "WARN" => .ok 30
  | "DEBUG" => .ok Log.Level.debug.weight
  | "NOTSET" => .ok 0
  | "BASIC_FORMAT" => .error .layout
  | "_STYLES" => .error .layouts
  | _ => .ok Log.Level.info.weight

end PlaneSketch.CommandLine
