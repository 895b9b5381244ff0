import PlaneSketch.Block
import PlaneSketch.DisjointSets
import PlaneSketch.Pool
import PlaneSketch.Total

/-!
Islands: groups of unknowns and blocks that can be solved apart from each other.

Free variables of one block, and the coordinates of one point, belong together. Blocks without a
free variable are grouped by their bound variables, into islands that hold nothing free.
-/

namespace PlaneSketch

/-- An island. Either `unknowns` holds its free variables and `pinned` is empty, or there are
none and `pinned` holds its bound variables. -/
structure Island (α : Type) where
  index : Nat
  unknowns : List Variable
  pinned : List Variable
  blocks : List (Block α)
  deriving Repr

namespace Island

variable {α : Type} [Scalar α]

/-- The number of residuals. -/
def rows (island : Island α) : Nat := total (island.blocks.map Block.rows)

/-- Is there nothing free in the island? -/
def isPinned (island : Island α) : Bool := island.unknowns.isEmpty

/-- The free and the pinned variables. -/
def members (island : Island α) : List Variable := island.unknowns ++ island.pinned

/-- The constraints that own blocks of the island, each once. -/
def constraints (island : Island α) : List Handle :=
  firstOccurrences (island.blocks.filterMap (·.owner.constraint?))

end Island

/-- The island number of a variable. -/
def islandOf? {α : Type} [Scalar α] (islands : List (Island α)) (v : Variable) : Option Nat :=
  (islands.find? fun island => island.members.contains v).map (·.index)

namespace Partition

variable {α : Type} [Scalar α]

/-- The members of a group that count: the free ones, or all when none is free. -/
def relevant (pool : Pool α) (group : List Variable) : List Variable :=
  let free := group.filter pool.isFree
  if free.isEmpty then group else free

/-- Every free variable, with the two coordinates of a free point joined. -/
def joinPoints (pool : Pool α) : DisjointSets Variable :=
  pool.freeKeys.foldl (fun sets v =>
    let sets := sets.add v
    if v.component = .x && pool.isFree ⟨v.handle, .y⟩ then sets.union v ⟨v.handle, .y⟩
    else sets) .empty

/-- The variables of each block joined. -/
def joinBlocks (pool : Pool α) (sets : DisjointSets Variable) (blocks : List (Block α)) :
    DisjointSets Variable :=
  blocks.foldl (fun sets block => sets.unionAll (relevant pool block.unknowns)) sets

/-- The registered variables of each link joined. -/
def joinLinks (pool : Pool α) (sets : DisjointSets Variable) (links : List (List Variable)) :
    DisjointSets Variable :=
  links.foldl (fun sets link => sets.unionAll (relevant pool (link.filter pool.contains))) sets

/-- The variables grouped by what belongs together. -/
def sets (pool : Pool α) (blocks : List (Block α)) (links : List (List Variable)) :
    DisjointSets Variable :=
  joinLinks pool (joinBlocks pool (joinPoints pool) blocks) links

/-- The variable by which the island of a block is found. -/
def anchor? (pool : Pool α) (block : Block α) : Option Variable :=
  (relevant pool block.unknowns).head?

/-- The island that a variable stands for. -/
def islandAt (pool : Pool α) (blocks : List (Block α)) (sets : DisjointSets Variable)
    (index : Nat) (root : Variable) : Island α :=
  let members := (pool.keys.filter sets.contains).filter fun v => sets.root v = root
  let free := members.filter pool.isFree
  { index
    unknowns := free
    pinned := if free.isEmpty then members else []
    blocks := blocks.filter fun block => (anchor? pool block).map sets.root = some root }

/-- The variables that stand for the islands, in the order in which the islands' first members
were registered. -/
def roots (pool : Pool α) (sets : DisjointSets Variable) : List Variable :=
  firstOccurrences ((pool.keys.filter sets.contains).map sets.root)

end Partition

/-- Group blocks and variables into islands. The members of a link that are registered come into
one island, even without a block that reads them. Islands are ordered by their first variable.

Once the sets are joined, the root of each variable is read as it is. To look the variable up
instead would let the variables on the way point to the root, and make no other islands: what is
found is the root (`DisjointSets.Forest.find_fst`), no root is changed by it
(`DisjointSets.Forest.root_find`), and no variable is added by looking up one that is there
(`DisjointSets.contains_find`). -/
def partition {α : Type} [Scalar α] (pool : Pool α) (blocks : List (Block α))
    (links : List (List Variable)) : Except Failure (List (Island α)) :=
  let sets := Partition.sets pool blocks links
  let roots := Partition.roots pool sets
  let placed (block : Block α) : Bool :=
    match Partition.anchor? pool block with
    | some v => roots.contains (sets.root v)
    | none => false
  if blocks.all placed then
    .ok (roots.zipIdx.map fun (root, index) =>
      Partition.islandAt pool blocks sets index root)
  else .error .strayBlock

end PlaneSketch
