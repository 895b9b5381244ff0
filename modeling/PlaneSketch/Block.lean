import PlaneSketch.Relation
import PlaneSketch.Constraint

/-!
Blocks: the residuals of one relation together with the constraint or the arc that demands it.
-/

namespace PlaneSketch

/-- What demands a relation: a constraint, or an arc by itself. -/
inductive Owner
  | constraint (constraint : Handle) (kind : ConstraintKind)
  | arc (feature : Handle)
  deriving Repr, DecidableEq

/-- The residuals of a relation. -/
structure Block (α : Type) where
  owner : Owner
  relation : Relation α
  deriving Repr

/-- The members of a list, each at its first place only. -/
def firstOccurrences {τ : Type} [DecidableEq τ] : List τ → List τ
  | [] => []
  | a :: rest => a :: (firstOccurrences rest).filter fun b => b ≠ a

namespace Owner

/-- The constraint, if it is one. -/
def constraint? : Owner → Option Handle
  | constraint h _ => some h
  | arc _ => none

/-- The arc, if it is one. -/
def feature? : Owner → Option Handle
  | constraint _ _ => none
  | arc h => some h

/-- The handle of the owner. -/
def handle : Owner → Handle
  | constraint h _ => h
  | arc h => h

/-- The kind of the owner, in words. -/
def kindName : Owner → String
  | constraint _ kind => kind.name
  | arc _ => "arc"

end Owner

namespace Block

variable {α : Type} [Scalar α]

/-- The name of a block. -/
def key (block : Block α) : String := block.owner.kindName ++ block.owner.handle.text

/-- The number of residuals. -/
def rows (block : Block α) : Nat := block.relation.rows

/-- The variables of a block, each once. -/
def unknowns (block : Block α) : List Variable := firstOccurrences block.relation.slots

/-- The residuals. -/
def residual (block : Block α) (v : Valuation α) : List α := block.relation.residual v

/-- The sum of the partials at all slots of a variable. -/
def partialBy (slots : List Variable) (partials : List α) (v : Variable) : α :=
  (List.zip slots partials).foldl (fun sum (slot, p) => if slot = v then sum + p else sum) 0

/-- The partial derivatives of the residuals by the given variables: one row per residual. -/
def jacobian (block : Block α) (v : Valuation α) (columns : List Variable) : List (List α) :=
  (block.relation.gradient v).map fun row =>
    columns.map (partialBy block.relation.slots row)

end Block

end PlaneSketch
