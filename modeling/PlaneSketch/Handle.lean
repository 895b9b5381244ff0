/-!
Handles: names of the items of a drawing. A handle says where an item is stored and how many items
were removed from that place before it was issued, so that it never names a later item.
-/

namespace PlaneSketch

/-- The place of an item and the generation of that place. A handle that comes from outside may
hold any two numbers. -/
structure Handle where
  index : Int
  generation : Int
  deriving Repr, DecidableEq, Inhabited

namespace Handle

/-- The handle of the first item stored at a place. -/
def first (index : Int) : Handle := ⟨index, 0⟩

/-- The generation is shown when it is not zero. -/
def text (h : Handle) : String :=
  if h.generation = 0 then s!"#{h.index}" else s!"#{h.index}@{h.generation}"

instance : ToString Handle := ⟨text⟩

/-- Order by place, then by generation. -/
def precedes (a b : Handle) : Bool :=
  a.index < b.index || (a.index = b.index && a.generation ≤ b.generation)

end Handle

end PlaneSketch
