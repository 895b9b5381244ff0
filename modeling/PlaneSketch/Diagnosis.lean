import PlaneSketch.LinearAlgebra.Rank
import PlaneSketch.Outcome

/-!
What an outcome says about an island: its rank, its freedom, and the constraints that are
redundant or in conflict.
-/

namespace PlaneSketch

/-- The state of an island after a solve. -/
inductive Status
  /-- solved, nothing left free -/
  | converged
  /-- solved, something left free -/
  | singular
  | unconverged
  /-- not solved because of a flaw -/
  | skipped
  deriving Repr, DecidableEq, Inhabited

/-- The name of a state. -/
def Status.name : Status → String
  | converged => "converged"
  | singular => "singular"
  | unconverged => "unconverged"
  | skipped => "skipped"

/-- Do the constraints of the island hold? -/
def Status.isConverged : Status → Bool
  | converged | singular => true
  | unconverged | skipped => false

/-- How the constraints of an island relate to its freedom. -/
inductive Classification
  | fullyConstrained | underConstrained | overConstrained
  deriving Repr, DecidableEq, Inhabited

/-- The name of a classification. -/
def Classification.name : Classification → String
  | fullyConstrained => "fully_constrained"
  | underConstrained => "under_constrained"
  | overConstrained => "over_constrained"

/-- What is found out about a solved island. -/
structure Diagnosis where
  status : Status
  classification : Classification
  rank : Nat
  dof : Int
  dependent : List Nat
  redundant : List Handle
  conflicting : List Handle
  deriving Repr

namespace Diagnosis

variable {α : Type} [Scalar α]

/-- The constraint that owns a row. -/
def rowConstraint? (system : Equations α) (row : Nat) : Option Handle :=
  (system.rowOwners[row]?).bind Owner.constraint?

/-- The constraints that bind variables of the block of a row. -/
def rowBindings (pool : Pool α) (system : Equations α) (row : Nat) : List Handle :=
  match (system.rowBlocks[row]?).bind (system.blocks[·]?) with
  | some block => block.unknowns.filterMap pool.binding?
  | none => []

/-- Rows whose residual is above the tolerance. -/
def violated (options : Options α) (residuals : List α) : List Nat :=
  (residuals.zipIdx.filter fun (r, _) =>
    Ordered.lt options.tolerance (Scalar.abs r)).map (·.2)

/-- The rows of a system that are in one of two lists, in order. -/
def rowsIn (count : Nat) (a b : List Nat) : List Nat :=
  (List.range count).filter fun row => a.contains row || b.contains row

/-- The constraints in conflict: those that own a violated or a dependent row and, when nothing is
free, those that bind what such a row reads. -/
def conflicts (options : Options α) (pool : Pool α) (system : Equations α) (residuals : List α)
    (dependent : List Nat) : List Handle :=
  let rows := rowsIn system.rows (violated options residuals) dependent
  let owners := rows.filterMap (rowConstraint? system)
  let bindings := if system.free.isEmpty then rows.flatMap (rowBindings pool system) else []
  firstOccurrences (owners ++ bindings)

/-- The rows to blame for a rank below the number of rows. -/
def blamed (methods : Methods α) (options : Options α) (system : Equations α) (jacobian : Matrix α)
    (rank : Nat) : Except Failure (List Nat) :=
  if rank < system.rows then
    match Rank.threshold? methods jacobian options.rankTolerance with
    | some bound => .ok (Rank.dependentRows jacobian bound)
    | none => .error .noSingularValues
  else .ok []

end Diagnosis

/-- Rank, freedom, redundancy and conflicts of an outcome. -/
def diagnose {α : Type} [Scalar α] (methods : Methods α) (options : Options α) (pool : Pool α)
    (system : Equations α) (outcome : Outcome α) : Except Failure Diagnosis := do
  let free := system.free.length
  let rank ← match Rank.numeric? methods outcome.jacobian options.rankTolerance with
    | some rank => .ok rank
    | none => .error .noSingularValues
  let dof : Int := free - rank
  let dependent ← Diagnosis.blamed methods options system outcome.jacobian rank
  if outcome.converged then
    return {
      status := if rank < free then .singular else .converged
      classification := if dof = 0 then .fullyConstrained else .underConstrained
      rank, dof, dependent
      redundant := firstOccurrences (dependent.filterMap (Diagnosis.rowConstraint? system))
      conflicting := [] }
  else
    return {
      status := .unconverged
      classification := .overConstrained
      rank, dof, dependent
      redundant := []
      conflicting := Diagnosis.conflicts options pool system outcome.residuals dependent }

end PlaneSketch
