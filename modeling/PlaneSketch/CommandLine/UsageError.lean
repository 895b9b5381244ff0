import PlaneSketch.CommandLine.Flag
import PlaneSketch.Text.Quoted

/-!
What can be wrong with a command line.
-/

namespace PlaneSketch.CommandLine

/-- What is wrong with a command line. -/
inductive UsageError
  /-- the beginning of more than one option -/
  | ambiguous (word : String) (candidates : List String)
  | valueMissing (flag : Flag)
  | valueUnwanted (flag : Flag) (value : String)
  | notAWholeNumber (flag : Flag) (value : String)
  | notANumber (flag : Flag) (value : String)
  | notAPosition (flag : Flag) (value : String)
  | pathMissing
  | leftOver (words : List String)
  /-- a drag without a target or a target without a drag -/
  | halfADrag
  /-- settings that the solver cannot run with, in words -/
  | unusable (message : String)
  deriving Repr, DecidableEq

/-- A message about an option. -/
def Flag.complaint (flag : Flag) (text : String) : String := s!"argument {flag.title}: {text}"

/-- The error in words. -/
def UsageError.message : UsageError → String
  | ambiguous word candidates =>
    s!"ambiguous option: {word} could match " ++ String.intercalate ", " candidates
  | valueMissing flag => flag.complaint "expected one argument"
  | valueUnwanted flag value => flag.complaint ("ignored explicit argument " ++ Text.quoted value)
  | notAWholeNumber flag value => flag.complaint ("invalid int value: " ++ Text.quoted value)
  | notANumber flag value => flag.complaint ("invalid float value: " ++ Text.quoted value)
  | notAPosition flag value => flag.complaint ("expected X,Y, got " ++ Text.quoted value)
  | pathMissing => "the following arguments are required: path"
  | leftOver words => "unrecognized arguments: " ++ String.intercalate " " words
  | halfADrag => "--drag and --to must be given together"
  | unusable message => message

end PlaneSketch.CommandLine
