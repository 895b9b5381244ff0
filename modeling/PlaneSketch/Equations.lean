import PlaneSketch.Island
import PlaneSketch.LinearAlgebra.Vector

/-!
The equations of an island over its free variables. Bound variables enter as constants.
-/

namespace PlaneSketch

/-- Blocks as functions of some free variables; all other variables have fixed values. -/
structure Equations (α : Type) where
  blocks : List (Block α)
  free : List Variable
  constants : Valuation α

namespace Equations

variable {α : Type} [Scalar α]

/-- The number of residuals. -/
def rows (system : Equations α) : Nat := total (system.blocks.map Block.rows)

/-- The column of a free variable. -/
def column? (system : Equations α) (v : Variable) : Option Nat := system.free.findIdx? (· = v)

/-- The value of every variable when the free ones stand at `x`. -/
def valuation (system : Equations α) (x : List α) : Valuation α := fun v =>
  match system.column? v with
  | some i => x.getD i 0
  | none => system.constants v

/-- All residuals at `x`, block after block. -/
def residuals (system : Equations α) (x : List α) : List α :=
  system.blocks.flatMap fun block => block.residual (system.valuation x)

/-- The partial derivatives of the residuals at `x` by the free variables. -/
def jacobian (system : Equations α) (x : List α) : Matrix α :=
  system.blocks.flatMap fun block => block.jacobian (system.valuation x) system.free

/-- The owner of each row. -/
def rowOwners (system : Equations α) : List Owner :=
  system.blocks.flatMap fun block => List.replicate block.rows block.owner

/-- The number of the block of each row. -/
def rowBlocks (system : Equations α) : List Nat :=
  system.blocks.zipIdx.flatMap fun (block, i) => List.replicate block.rows i

end Equations

/-- Values for all variables an island has to do with, which all have to be registered. -/
def islandValues {α : Type} [Scalar α] (pool : Pool α) (island : Island α) :
    Except Failure (List (Variable × α)) :=
  (island.members ++ island.blocks.flatMap Block.unknowns).mapM fun v => do
    return (v, ← pool.value v)

/-- The registered values; zero for a variable that is not registered. -/
def Pool.valuation {α : Type} [Scalar α] (pool : Pool α) : Valuation α := fun v =>
  match pool.value v with
  | .ok value => value
  | .error _ => 0

/-- The equations of an island, its variables being registered. -/
def Equations.ofIsland {α : Type} [Scalar α] (pool : Pool α) (island : Island α) :
    Except Failure (Equations α × List α) := do
  let _ ← islandValues pool island
  let start ← island.unknowns.mapM pool.value
  return (⟨island.blocks, island.unknowns, pool.valuation⟩, start)

end PlaneSketch
