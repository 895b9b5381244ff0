/-!
Disjoint sets of items, joined by rank.

Every item points to a parent; items that point to themselves stand for their set. A join lets the
item of lower rank point to the other one, so that ranks grow from an item to its parent. Looking
an item up lets every item on the way point to the end of the way.
-/

namespace PlaneSketch

/-- An item with the item that it points to and its rank. -/
structure SetNode (κ : Type) where
  item : κ
  parent : κ
  rank : Nat
  deriving Repr

/-- Items grouped into disjoint sets. -/
structure DisjointSets (κ : Type) where
  nodes : List (SetNode κ)
  deriving Repr

namespace DisjointSets

variable {κ : Type} [DecidableEq κ]

/-- No items. -/
def empty : DisjointSets κ := ⟨[]⟩

/-- The node of an item. -/
def node? (sets : DisjointSets κ) (a : κ) : Option (SetNode κ) :=
  sets.nodes.find? fun node => node.item = a

/-- Is the item in one of the sets? -/
def contains (sets : DisjointSets κ) (a : κ) : Bool := (sets.node? a).isSome

/-- The item that an item points to: itself when it is in no set. -/
def parent (sets : DisjointSets κ) (a : κ) : κ := ((sets.node? a).map (·.parent)).getD a

/-- The rank of an item. -/
def rank (sets : DisjointSets κ) (a : κ) : Nat := ((sets.node? a).map (·.rank)).getD 0

/-- The largest rank. -/
def height (sets : DisjointSets κ) : Nat :=
  sets.nodes.foldr (fun node top => max node.rank top) 0

theorem rank_le_height (sets : DisjointSets κ) (a : κ) : sets.rank a ≤ sets.height := by
  have bound : ∀ (nodes : List (SetNode κ)) (node : SetNode κ), node ∈ nodes →
      node.rank ≤ nodes.foldr (fun node top => max node.rank top) 0 := by
    intro nodes
    induction nodes with
    | nil => simp
    | cons first rest ih =>
      intro node member
      rcases List.mem_cons.1 member with rfl | later
      · exact Nat.le_max_left _ _
      · exact Nat.le_trans (ih node later) (Nat.le_max_right _ _)
  unfold rank node?
  cases found : sets.nodes.find? fun node => decide (node.item = a) with
  | none => simp
  | some node => exact bound sets.nodes node (List.mem_of_find?_eq_some found)

/-- Add an item as a set of its own, unless it is in a set already. -/
def add (sets : DisjointSets κ) (a : κ) : DisjointSets κ :=
  if sets.contains a then sets else ⟨sets.nodes ++ [⟨a, a, 0⟩]⟩

/-- The items from `a` along the parents to the one that stands for the set. Ranks grow on the
way, so it is no longer than the largest rank. -/
def way (sets : DisjointSets κ) (a : κ) : List κ :=
  if sets.parent a = a then [a]
  else if _rising : sets.rank a < sets.rank (sets.parent a) then
    a :: sets.way (sets.parent a)
  else [a, sets.parent a]
  termination_by sets.height - sets.rank a
  decreasing_by
    have := sets.rank_le_height (sets.parent a)
    omega

/-- The item that stands for the set of `a`. -/
def root (sets : DisjointSets κ) (a : κ) : κ := (sets.way a).getLast?.getD a

/-- Let some items point to `target`. -/
def redirect (sets : DisjointSets κ) (items : List κ) (target : κ) : DisjointSets κ :=
  ⟨sets.nodes.map fun node => if node.item ∈ items then { node with parent := target } else node⟩

/-- Look up the item that stands for the set of `a`, and shorten the way to it. An item in no set
is added. -/
def find (sets : DisjointSets κ) (a : κ) : κ × DisjointSets κ :=
  let known := sets.add a
  (known.root a, known.redirect (known.way a) (known.root a))

/-- Raise the rank of an item by one. -/
def promote (sets : DisjointSets κ) (a : κ) : DisjointSets κ :=
  ⟨sets.nodes.map fun node =>
    if node.item = a then { node with rank := node.rank + 1 } else node⟩

/-- Let the one of two standing items with the lower rank point to the other; of equal ranks, the
second to the first, whose rank rises. -/
def link (sets : DisjointSets κ) (a b : κ) : DisjointSets κ :=
  if a = b then sets
  else if sets.rank a < sets.rank b then sets.redirect [a] b
  else if sets.rank b < sets.rank a then sets.redirect [b] a
  else (sets.redirect [b] a).promote a

/-- Join the sets of two items. -/
def union (sets : DisjointSets κ) (a b : κ) : DisjointSets κ :=
  let (rootA, sets) := sets.find a
  let (rootB, sets) := sets.find b
  sets.link rootA rootB

/-- Join the sets of all items of a list. A single item is not looked at. -/
def unionAll (sets : DisjointSets κ) : List κ → DisjointSets κ
  | [] => sets
  | a :: others => others.foldl (fun sets b => sets.union a b) sets

end DisjointSets

end PlaneSketch
