import PlaneSketch.Cycle
import PlaneSketch.Flaw

/-!
Finding the flaws of a drawing: those of features in order, then circles of features, then those
of constraints in order. A constraint has at most one flaw.
-/

namespace PlaneSketch

/-- The kinds of the features that a feature is built on. -/
def FeatureKind.parts : FeatureKind → List FeatureKind
  | point => []
  | line => [point, point]
  | circle => [point]
  | arc => [point, point, point]
  | gear => [point]

/-- Does the kind have a radius? -/
def FeatureKind.isRound : FeatureKind → Bool
  | circle | arc => true
  | point | line | gear => false

namespace ConstraintKind

/-- What may stand at each reference of a constraint; some kinds have two forms. -/
def forms : ConstraintKind → List (List (FeatureKind → Bool))
  | fixed => [[isPoint]]
  | length => [[isLine], [isPoint, isPoint]]
  | radius => [[FeatureKind.isRound]]
  | radiusEqual => [[FeatureKind.isRound, FeatureKind.isRound]]
  | parallel => [[isLine, isLine]]
  | perpendicular => [[isLine, isLine]]
  | angle => [[isLine], [isLine, isLine]]
  | coincident => [[isPoint, fun kind => kind ≠ .gear]]
  | symmetric => [[isPoint, isPoint, isLine], [isPoint, isPoint, isPoint]]
  | alongAxis => [[isLine]]
  | lerp => [[isPoint, isLine]]
  | equalLength => [[isLine, isLine]]
where
  isPoint (kind : FeatureKind) : Bool := kind = .point
  isLine (kind : FeatureKind) : Bool := kind = .line

/-- Do features of these kinds fit one of the forms? -/
def accepts (constraint : ConstraintKind) (kinds : List FeatureKind) : Bool :=
  constraint.forms.any fun form =>
    form.length = kinds.length && (List.zipWith (fun fits kind => fits kind) form kinds).all id

end ConstraintKind

namespace Sketch

variable {α : Type}

/-- The fault of a single reference that should name a feature of a given kind. -/
def referenceFault? (sketch : Sketch α) (h : Handle) (expected : FeatureKind) :
    Option FeatureFault :=
  match sketch.feature? h with
  | none => some (.dead h (sketch.features.isStale h))
  | some target => if target.kind = expected then none else some (.wrongKind h target.kind expected)

/-- Does a list hold no handle twice? -/
def distinct : List Handle → Bool
  | [] => true
  | h :: rest => !rest.contains h && distinct rest

/-- The faults of a feature. A wrong number of references hides all others. -/
def featureFaults (sketch : Sketch α) (feature : Feature α) : List FeatureFault :=
  let expected := feature.kind.parts
  let references := feature.references
  if references.length ≠ expected.length then [.count expected.length references.length]
  else
    (List.zipWith sketch.referenceFault? references expected).filterMap id ++
      (if distinct references then [] else [.repeated])

/-- The flaws of single features. -/
def featureFlaws (sketch : Sketch α) : List (Flaw α) :=
  sketch.features.items.flatMap fun (h, feature) =>
    (sketch.featureFaults feature).map (.feature h feature.kind feature.references)

/-- The flaws of features that refer to each other in a circle. -/
def cycleFlaws (sketch : Sketch α) : List (Flaw α) :=
  (Cycle.all sketch).filterMap fun
    | [] => none
    | first :: others => some (.cycle first others)

/-- A feature outside `broken` that refers to a broken feature or to none. -/
def nextBroken? (sketch : Sketch α) (broken : List Handle) : Option Handle :=
  (sketch.features.items.find? fun (h, feature) =>
    !broken.contains h &&
      feature.references.any fun r => broken.contains r || !sketch.isLive r).map (·.1)

theorem nextBroken?_fresh {sketch : Sketch α} {broken : List Handle} {h : Handle}
    (next : sketch.nextBroken? broken = some h) :
    sketch.features.isLive h = true ∧ broken.contains h = false := by
  unfold nextBroken? at next
  obtain ⟨⟨k, feature⟩, found, rfl⟩ := Option.map_eq_some_iff.1 next
  have member := List.mem_of_find?_eq_some found
  have holds := List.find?_some found
  refine ⟨Arena.mem_handles_iff.1 (List.mem_map_of_mem member), ?_⟩
  simp only [Bool.and_eq_true] at holds
  simpa using holds.1

/-- Add to the broken features all that are built on them or on nothing. -/
def spreadBroken (sketch : Sketch α) (broken : List Handle) : List Handle :=
  match _next : sketch.nextBroken? broken with
  | none => broken
  | some h => spreadBroken sketch (h :: broken)
  termination_by sketch.features.unseen broken
  decreasing_by
    exact Arena.unseen_cons_lt (nextBroken?_fresh _next).1 (nextBroken?_fresh _next).2

/-- The features that cannot be turned into equations because of the flaws found. -/
def brokenFeatures (sketch : Sketch α) (flaws : List (Flaw α)) : List Handle :=
  sketch.spreadBroken (flaws.filterMap Flaw.feature?)

variable [Scalar α]

/-- The fault of the numbers of a constraint. -/
def valueFault? (constraint : Constraint α) : Option (ConstraintFault α) :=
  match constraint.kind with
  | .alongAxis => if constraint.cardinality.isNone then some .missingAxis else none
  | .length | .radius =>
    match constraint.amount with
    | none => some .missingAmount
    | some amount => if Ordered.lt amount 0 then some (.negativeAmount amount) else none
  | .angle | .lerp => if constraint.amount.isNone then some .missingAmount else none
  | .radiusEqual | .equalLength =>
    if Ordered.le constraint.multiplier 0 then some (.nonPositiveMultiplier constraint.multiplier)
    else none
  | .fixed | .parallel | .perpendicular | .coincident | .symmetric => none

/-- The first fault of a constraint. -/
def constraintFault? (sketch : Sketch α) (broken : List Handle) (constraint : Constraint α) :
    Option (ConstraintFault α) :=
  let references := constraint.references
  match references.find? fun r => !sketch.isLive r with
  | some r => some (.dead r (sketch.features.isStale r))
  | none =>
    if !distinct references then some .repeated
    else
      match references.find? broken.contains with
      | some r => some (.broken r)
      | none =>
        let kinds := references.filterMap fun r => (sketch.feature? r).map (·.kind)
        if constraint.kind.accepts kinds then valueFault? constraint else some (.kinds kinds)

/-- The flaws of constraints, given the broken features. -/
def constraintFlaws (sketch : Sketch α) (broken : List Handle) : List (Flaw α) :=
  sketch.constraints.items.filterMap fun (h, constraint) =>
    (sketch.constraintFault? broken constraint).map
      (.constraint h constraint.kind constraint.references)

/-- All flaws of a drawing. -/
def flaws (sketch : Sketch α) : List (Flaw α) :=
  let features := sketch.featureFlaws ++ sketch.cycleFlaws
  features ++ sketch.constraintFlaws (sketch.brokenFeatures features)

/-- The flaws of a drawing. A strict validation stops at the first one. -/
def validate (sketch : Sketch α) (strict : Bool) : Except (Flaw α) (List (Flaw α)) :=
  match strict, sketch.flaws with
  | true, first :: _ => .error first
  | _, flaws => .ok flaws

end Sketch

end PlaneSketch
