import PlaneSketch.Describe

/-!
Lines about a call: one when it starts, with its arguments, and one when it ends.
-/

namespace PlaneSketch.Log

/-- An argument of a call, given by its place or by name. -/
structure Argument where
  name : Option String
  value : Shown

/-- An argument given by its place. -/
def Argument.plain (value : Shown) : Argument := ⟨none, value⟩

/-- An argument given by name. -/
def Argument.named (name : String) (value : Shown) : Argument := ⟨some name, value⟩

/-- The argument in words. -/
def Argument.text (argument : Argument) : String :=
  match argument.name with
  | some name => s!"{name}={argument.value.text}"
  | none => argument.value.text

/-- The line at the start of a call. -/
def entered (label : String) (arguments : List Argument) : String :=
  let texts := String.intercalate ", " (arguments.map Argument.text)
  s!"-> {label}({texts})"

/-- The line at the end of a call that gives a value; `elapsed` is its duration in milliseconds. -/
def returned (label : String) (value : Shown) (elapsed : String) : String :=
  s!"<- {label} = {value.text} ({elapsed} ms)"

/-- The line at the end of a call that gives no value. -/
def interrupted (label : String) (elapsed : String) : String :=
  s!"<- {label} raised after {elapsed} ms"

end PlaneSketch.Log
