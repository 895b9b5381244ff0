import PlaneSketch.Arena
import PlaneSketch.Constraint
import PlaneSketch.Feature
import PlaneSketch.Text.Symbols

/-!
Drawings: features and constraints under handles, and named groups of features.
-/

namespace PlaneSketch

/-- What a group of features outlines. -/
inductive GroupKind
  | boundary | hole
  deriving Repr, DecidableEq, Inhabited

/-- The name of a kind of group. -/
def GroupKind.name : GroupKind → String
  | boundary => "Boundary"
  | hole => "Hole"

/-- The kind of group of a name. -/
def GroupKind.ofName? (name : String) : Option GroupKind :=
  [boundary, hole].find? (·.name = name)

/-- A named group of features; amount and bottom are carried along. -/
structure Group (α : Type) where
  kind : GroupKind
  name : Text
  members : List Handle
  amount : Option α
  bottom : Option α
  deriving Repr

/-- A drawing. -/
structure Sketch (α : Type) where
  features : Arena (Feature α)
  constraints : Arena (Constraint α)
  groups : List (Group α)
  deriving Repr

namespace Sketch

variable {α : Type}

/-- Nothing drawn. -/
def empty : Sketch α := ⟨Arena.empty, Arena.empty, []⟩

/-- The feature of a handle. -/
def feature? (sketch : Sketch α) (h : Handle) : Option (Feature α) := sketch.features.get? h

/-- Does the handle name a feature? -/
def isLive (sketch : Sketch α) (h : Handle) : Bool := sketch.features.isLive h

/-- The features that refer to a handle, in order. -/
def dependents (sketch : Sketch α) (h : Handle) : List Handle :=
  (sketch.features.items.filter fun item => item.2.references.contains h).map (·.1)

/-- The constraints that refer to a handle, in order. -/
def constraintsOn (sketch : Sketch α) (h : Handle) : List Handle :=
  (sketch.constraints.items.filter fun item => item.2.references.contains h).map (·.1)

/-- Add a feature. -/
def addFeature (sketch : Sketch α) (feature : Feature α) : Sketch α × Handle :=
  let (features, h) := sketch.features.insert feature
  ({ sketch with features }, h)

/-- Add a constraint. -/
def addConstraint (sketch : Sketch α) (constraint : Constraint α) : Sketch α × Handle :=
  let (constraints, h) := sketch.constraints.insert constraint
  ({ sketch with constraints }, h)

/-- Add a group. -/
def addGroup (sketch : Sketch α) (group : Group α) : Sketch α :=
  { sketch with groups := sketch.groups ++ [group] }

end Sketch

end PlaneSketch
