/-!
The options of the command line.
-/

namespace PlaneSketch.CommandLine

/-- The options. -/
inductive Flag
  | help | logLevel | maxIterations | tolerance | drag | target | workers | json | strict
  deriving Repr, DecidableEq

namespace Flag

/-- Every option, in the order in which they are listed. -/
def all : List Flag :=
  [help, logLevel, maxIterations, tolerance, drag, target, workers, json, strict]

/-- The names of an option. -/
def names : Flag → List String
  | help => ["-h", "--help"]
  | logLevel => ["--log-level"]
  | maxIterations => ["--max-iterations"]
  | tolerance => ["--tolerance"]
  | drag => ["--drag"]
  | target => ["--to"]
  | workers => ["--workers"]
  | json => ["--json"]
  | strict => ["--strict"]

/-- The option in a message. -/
def title (flag : Flag) : String := String.intercalate "/" flag.names

/-- Does a value follow the option? -/
def takesValue : Flag → Bool
  | help | json | strict => false
  | logLevel | maxIterations | tolerance | drag | target | workers => true

/-- All names with the options they stand for. -/
def table : List (String × Flag) :=
  all.flatMap fun flag => flag.names.map fun name => (name, flag)

/-- The option of a name written in full. -/
def ofName? (name : String) : Option Flag := (table.find? fun entry => entry.1 = name).map (·.2)

end Flag

end PlaneSketch.CommandLine
