import PlaneSketch.Feature

/-!
The unknowns of a drawing: the coordinates of its points and the radii of its circles.
-/

namespace PlaneSketch

/-- Which number of a feature. -/
inductive Component
  | x | y | r
  deriving Repr, DecidableEq, Inhabited

/-- The name of a component. -/
def Component.name : Component → String
  | x => "x"
  | y => "y"
  | r => "r"

/-- Rank of a component in the alphabet. -/
def Component.rank : Component → Nat
  | r => 0
  | x => 1
  | y => 2

/-- A number of a feature. -/
structure Variable where
  handle : Handle
  component : Component
  deriving Repr, DecidableEq, Inhabited

namespace Variable

/-- The handle and the component with a point between them. -/
def text (v : Variable) : String := s!"{v.handle.text}.{v.component.name}"

instance : ToString Variable := ⟨text⟩

/-- Order by handle, then by component. -/
def precedes (a b : Variable) : Bool :=
  if a.handle = b.handle then a.component.rank ≤ b.component.rank
  else a.handle.precedes b.handle

end Variable

/-- The numbers of a kind of feature that are unknowns. -/
def FeatureKind.components : FeatureKind → List Component
  | .point => [.x, .y]
  | .circle => [.r]
  | .line | .arc | .gear => []

namespace Feature

variable {α : Type}

/-- A number of a feature. -/
def value (feature : Feature α) : Component → α
  | .x => feature.x
  | .y => feature.y
  | .r => feature.r

/-- The feature with one number replaced. -/
def withValue (feature : Feature α) (component : Component) (value : α) : Feature α :=
  match component with
  | .x => { feature with x := value }
  | .y => { feature with y := value }
  | .r => { feature with r := value }

end Feature

end PlaneSketch
