import PlaneSketch.Failure
import PlaneSketch.Sketch

/-!
Looking up what a handle names, with the reason when it names nothing.
-/

namespace PlaneSketch.Sketch

variable {α : Type}

/-- The feature of a handle that has to be live. -/
def liveFeature (sketch : Sketch α) (h : Handle) : Except Failure (Feature α) :=
  match sketch.feature? h with
  | some feature => .ok feature
  | none => .error (.deadFeature h)

/-- The constraint of a handle. -/
def liveConstraint (sketch : Sketch α) (h : Handle) : Except Failure (Constraint α) :=
  match sketch.constraints.get? h with
  | some constraint => .ok constraint
  | none => .error (.deadConstraint h)

/-- The position of a point. -/
def pointPosition (sketch : Sketch α) (h : Handle) : Except Failure (Vec2 α) :=
  match sketch.feature? h with
  | none => .error (.deadFeature h)
  | some feature =>
    if feature.kind = .point then .ok ⟨feature.x, feature.y⟩
    else .error (.notAPoint h feature.kind)

end PlaneSketch.Sketch
