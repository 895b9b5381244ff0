import PlaneSketch.Sketch

/-!
Flaws: what makes a feature or a constraint unfit to be turned into equations. A flaw names its
owner and every feature that the owner touches.
-/

namespace PlaneSketch

/-- What is wrong with a feature. -/
inductive FeatureFault
  /-- the number of references is wrong -/
  | count (expected got : Nat)
  /-- a reference names nothing: nothing any more, or nothing ever -/
  | dead (reference : Handle) (stale : Bool)
  /-- a reference names a feature of the wrong kind -/
  | wrongKind (reference : Handle) (got expected : FeatureKind)
  /-- a reference occurs twice -/
  | repeated
  deriving Repr, DecidableEq

/-- What is wrong with a constraint. -/
inductive ConstraintFault (α : Type)
  /-- a reference names nothing: nothing any more, or nothing ever -/
  | dead (reference : Handle) (stale : Bool)
  /-- a reference occurs twice -/
  | repeated
  /-- a reference names a feature that is itself unfit -/
  | broken (reference : Handle)
  /-- the kinds of the references do not fit the kind of the constraint -/
  | kinds (got : List FeatureKind)
  | missingAxis
  | missingAmount
  | negativeAmount (amount : α)
  | nonPositiveMultiplier (multiplier : α)
  deriving Repr

/-- A flaw of a drawing. -/
inductive Flaw (α : Type)
  | feature (owner : Handle) (kind : FeatureKind) (references : List Handle)
      (fault : FeatureFault)
  /-- features that refer to each other in a circle, from the first one on -/
  | cycle (first : Handle) (others : List Handle)
  | constraint (owner : Handle) (kind : ConstraintKind) (references : List Handle)
      (fault : ConstraintFault α)
  deriving Repr

namespace Flaw

variable {α : Type}

/-- The feature that the flaw belongs to. -/
def feature? : Flaw α → Option Handle
  | feature owner _ _ _ => some owner
  | cycle first _ => some first
  | constraint _ _ _ _ => none

/-- The constraint that the flaw belongs to. -/
def constraint? : Flaw α → Option Handle
  | constraint owner _ _ _ => some owner
  | feature _ _ _ _ | cycle _ _ => none

/-- The features that the owner of the flaw touches. -/
def references : Flaw α → List Handle
  | feature owner _ references _ => owner :: references
  | cycle first others => first :: others
  | constraint _ _ references _ => references

/-- A reference that names nothing, in words. -/
def deadText (reference : Handle) (stale : Bool) : String :=
  if stale then s!"stale reference {reference.text}" else s!"dangling reference {reference.text}"

/-- The kinds of some references, in words. -/
def kindsText (kinds : List FeatureKind) : String :=
  if kinds.isEmpty then "nothing" else String.intercalate ", " (kinds.map FeatureKind.name)

/-- The fault of a feature, in words. -/
def featureFaultText : FeatureFault → String
  | .count expected got => s!"expects {expected} references, got {got}"
  | .dead reference stale => s!"has {deadText reference stale}"
  | .wrongKind reference got expected =>
    s!"references {reference.text} which is a {got.name}, expected {expected.name}"
  | .repeated => "references the same point twice"

/-- The fault of a constraint, in words; `number` writes an amount. -/
def constraintFaultText (number : α → String) : ConstraintFault α → String
  | .dead reference stale => s!"has {deadText reference stale}"
  | .repeated => "references the same feature twice"
  | .broken reference => s!"references invalid feature {reference.text}"
  | .kinds got => s!"cannot reference ({kindsText got})"
  | .missingAxis => "needs a cardinality axis"
  | .missingAmount => "needs an amount"
  | .negativeAmount amount => s!"has negative amount {number amount}"
  | .nonPositiveMultiplier multiplier => s!"has non-positive multiplier {number multiplier}"

/-- The flaw in words; `number` writes an amount. -/
def message (number : α → String) : Flaw α → String
  | feature owner kind _ fault =>
    s!"feature {owner.text} ({kind.name}) {featureFaultText fault}"
  | cycle first others =>
    let path := String.intercalate " -> " ((first :: others ++ [first]).map Handle.text)
    s!"cyclic feature dependency {path}"
  | constraint owner kind _ fault =>
    s!"constraint {owner.text} ({kind.name}) {constraintFaultText number fault}"

end Flaw

end PlaneSketch
