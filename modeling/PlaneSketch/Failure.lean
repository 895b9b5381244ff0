import PlaneSketch.Variable

/-!
What can keep an operation from giving an answer.
-/

namespace PlaneSketch

/-- The reasons for which an operation fails. -/
inductive Failure
  /-- the handle names no feature -/
  | deadFeature (feature : Handle)
  /-- the handle names no constraint -/
  | deadConstraint (constraint : Handle)
  /-- a position was asked of a feature that is no point -/
  | notAPoint (feature : Handle) (kind : FeatureKind)
  /-- the variable is registered already -/
  | duplicateVariable (unknown : Variable)
  /-- no such variable is registered -/
  | unknownVariable (unknown : Variable)
  /-- a bound variable was to be changed -/
  | boundVariable (unknown : Variable) (constraint : Handle)
  /-- a reference was looked up beyond the end of the references -/
  | missingReference
  /-- the number of references is not the one that the kind needs -/
  | referenceCount
  /-- a radius was asked of a feature that has none -/
  | noRadius (feature : Handle) (kind : FeatureKind)
  /-- no point can lie on a feature of this kind -/
  | noCoincidence (constraint : Handle) (kind : FeatureKind)
  /-- an infinite angle has no direction -/
  | infiniteAngle
  /-- none of the variables of an equation is registered -/
  | strayBlock
  /-- there is no island of this number -/
  | missingIsland
  /-- the settings are not ones that the solver can run with; each problem in words -/
  | unusableOptions (problems : List String)
  /-- the least-squares method gave no step -/
  | noStep
  /-- the singular values could not be found -/
  | noSingularValues
  /-- the result holds no position of the point -/
  | unsolvedPoint (point : Handle)
  deriving Repr, DecidableEq

/-- The failure in words; none when it has no text of its own. -/
def Failure.message? : Failure → Option String
  | deadFeature h => some s!"feature {h.text} is not live"
  | deadConstraint h => some s!"constraint {h.text} is not live"
  | notAPoint h kind => some s!"feature {h.text} is a {kind.name}, not a point"
  | duplicateVariable v => some s!"variable {v.text} registered twice"
  | unknownVariable v => some s!"unknown variable {v.text}"
  | boundVariable v h => some s!"variable {v.text} is bound by constraint {h.text}"
  | noRadius h kind => some s!"feature {h.text} ({kind.name}) has no radius"
  | noCoincidence h kind =>
    some s!"constraint {h.text} cannot make a point coincident with a {kind.name}"
  | unusableOptions problems =>
    some ("Invalid solve options: " ++ String.intercalate "; " problems)
  | unsolvedPoint h => some s!"no solved position for point {h.text}"
  | missingReference | referenceCount | infiniteAngle | strayBlock | missingIsland | noStep
  | noSingularValues => none

/-- Did a handle not lead to what was looked for? -/
def Failure.isLookup : Failure → Bool
  | deadFeature _ | deadConstraint _ | notAPoint _ _ => true
  | _ => false

end PlaneSketch
