import PlaneSketch.Handle

/-!
Storage of items under handles.

Places are only ever added. Removing an item empties its place and raises the generation of the
place, so that handles issued before resolve to nothing from then on.
-/

namespace PlaneSketch

/-- A place: the item in it, if any, and the number of items removed from it. -/
structure Slot (τ : Type) where
  item : Option τ
  generation : Nat
  deriving Repr

/-- Items stored under handles. -/
structure Arena (τ : Type) where
  slots : List (Slot τ)
  deriving Repr

namespace Arena

variable {τ : Type}

/-- No place at all. -/
def empty : Arena τ := ⟨[]⟩

/-- The place that a handle points to, whatever its generation. -/
def slot? (arena : Arena τ) (h : Handle) : Option (Slot τ) :=
  if h.index < 0 then none else arena.slots[h.index.toNat]?

/-- The item that a handle names; none when it names nothing, or nothing any more. -/
def get? (arena : Arena τ) (h : Handle) : Option τ :=
  match arena.slot? h with
  | some slot => if (slot.generation : Int) = h.generation then slot.item else none
  | none => none

/-- Does the handle name an item? -/
def isLive (arena : Arena τ) (h : Handle) : Bool := (arena.get? h).isSome

/-- Does the handle point to a place, but with another generation than the present one? -/
def isStale (arena : Arena τ) (h : Handle) : Bool :=
  match arena.slot? h with
  | some slot => decide ((slot.generation : Int) ≠ h.generation)
  | none => false

/-- Store an item in a new place. -/
def insert (arena : Arena τ) (item : τ) : Arena τ × Handle :=
  (⟨arena.slots ++ [⟨some item, 0⟩]⟩, Handle.first arena.slots.length)

/-- Empty the place of a live handle. -/
def remove (arena : Arena τ) (h : Handle) : Arena τ :=
  if arena.isLive h then
    ⟨arena.slots.modify h.index.toNat fun slot => ⟨none, slot.generation + 1⟩⟩
  else arena

/-- Replace the item of a live handle. -/
def update (arena : Arena τ) (h : Handle) (change : τ → τ) : Arena τ :=
  if arena.isLive h then
    ⟨arena.slots.modify h.index.toNat fun slot => { slot with item := slot.item.map change }⟩
  else arena

/-- The items from a place onwards, each with its handle. -/
def itemsFrom (index : Nat) : List (Slot τ) → List (Handle × τ)
  | [] => []
  | slot :: rest =>
    match slot.item with
    | some item => (⟨index, slot.generation⟩, item) :: itemsFrom (index + 1) rest
    | none => itemsFrom (index + 1) rest

/-- All items with their handles, in the order in which they were stored. -/
def items (arena : Arena τ) : List (Handle × τ) := itemsFrom 0 arena.slots

/-- The handles of all items, in order. -/
def handles (arena : Arena τ) : List Handle := arena.items.map (·.1)

/-- Number of items. -/
def size (arena : Arena τ) : Nat := arena.items.length

/-! ### Items and handles -/

theorem mem_itemsFrom {start : Nat} {slots : List (Slot τ)} {h : Handle} {item : τ} :
    (h, item) ∈ itemsFrom start slots ↔
      ∃ (place : Nat) (slot : Slot τ), slots[place]? = some slot ∧ slot.item = some item ∧
        h = ⟨(start + place : Nat), slot.generation⟩ := by
  induction slots generalizing start with
  | nil => simp [itemsFrom]
  | cons first rest ih =>
    have split : (∃ (place : Nat) (slot : Slot τ), (first :: rest)[place]? = some slot ∧
        slot.item = some item ∧ h = ⟨(start + place : Nat), slot.generation⟩) ↔
        (first.item = some item ∧ h = ⟨start, first.generation⟩) ∨
          ∃ (place : Nat) (slot : Slot τ), rest[place]? = some slot ∧ slot.item = some item ∧
            h = ⟨(start + 1 + place : Nat), slot.generation⟩ := by
      constructor
      · rintro ⟨place, slot, found, held, named⟩
        cases place with
        | zero =>
          simp only [List.getElem?_cons_zero, Option.some.injEq] at found
          subst found
          exact .inl ⟨held, by simpa using named⟩
        | succ place =>
          simp only [List.getElem?_cons_succ] at found
          exact .inr ⟨place, slot, found, held, by rw [named]; congr 2; omega⟩
      · rintro (⟨held, named⟩ | ⟨place, slot, found, held, named⟩)
        · exact ⟨0, first, by simp, held, by simpa using named⟩
        · exact ⟨place + 1, slot, by simpa using found, held, by rw [named]; congr 2; omega⟩
    rw [split]
    unfold itemsFrom
    cases held : first.item with
    | none => simp [ih]
    | some value =>
      simp only [List.mem_cons, Prod.mk.injEq, ih, Option.some.injEq]
      constructor
      · rintro (⟨named, rfl⟩ | later)
        · exact .inl ⟨rfl, named⟩
        · exact .inr later
      · rintro (⟨rfl, named⟩ | later)
        · exact .inl ⟨named, rfl⟩
        · exact .inr later

/-- The items are the pairs of a handle and what it names. -/
theorem mem_items_iff {arena : Arena τ} {h : Handle} {item : τ} :
    (h, item) ∈ arena.items ↔ arena.get? h = some item := by
  unfold items
  rw [mem_itemsFrom]
  constructor
  · rintro ⟨place, slot, found, held, rfl⟩
    have nonneg : ¬ ((place : Nat) : Int) < 0 := by omega
    simp [get?, slot?, found, held, nonneg]
  · intro named
    unfold get? slot? at named
    split at named
    · rename_i slot found
      split at found
      · cases found
      · rename_i nonneg
        split at named
        · rename_i current
          have place : ((h.index.toNat : Nat) : Int) = h.index := by omega
          refine ⟨h.index.toNat, slot, found, named, ?_⟩
          simp only [Nat.zero_add, place, current]
        · cases named
    · cases named

/-- The handles of the items are the live ones. -/
theorem mem_handles_iff {arena : Arena τ} {h : Handle} :
    h ∈ arena.handles ↔ arena.isLive h = true := by
  unfold handles isLive
  simp only [List.mem_map, Prod.exists, exists_and_right, exists_eq_right, Option.isSome_iff_exists,
    mem_items_iff]

/-! ### Counting what was not seen yet -/

/-- How many live handles a list leaves out. -/
def unseen (arena : Arena τ) (seen : List Handle) : Nat :=
  arena.handles.countP fun h => !seen.contains h

theorem countP_cons_le (all seen : List Handle) (h : Handle) :
    all.countP (fun k => !(h :: seen).contains k) ≤ all.countP fun k => !seen.contains k := by
  apply List.countP_mono_left
  intro k _ absent
  simp_all

theorem unseen_cons_le (arena : Arena τ) (seen : List Handle) (h : Handle) :
    arena.unseen (h :: seen) ≤ arena.unseen seen := countP_cons_le _ _ _

theorem countP_cons_lt {all seen : List Handle} {h : Handle} (member : h ∈ all)
    (fresh : seen.contains h = false) :
    all.countP (fun k => !(h :: seen).contains k) < all.countP fun k => !seen.contains k := by
  induction all with
  | nil => cases member
  | cons first rest ih =>
    have below := countP_cons_le rest seen h
    by_cases same : first = h
    · subst same
      have itself : (first :: seen).contains first = true := by simp
      simp only [List.countP_cons, fresh, itself, Bool.not_true, Bool.not_false, ↓reduceIte,
        Bool.false_eq_true]
      omega
    · have step := ih ((List.mem_cons.1 member).resolve_left (Ne.symm same))
      have other : (h :: seen).contains first = seen.contains first := by
        simp [same]
      simp only [List.countP_cons, other]
      omega

/-- Seeing a live handle for the first time leaves fewer to see. -/
theorem unseen_cons_lt {arena : Arena τ} {seen : List Handle} {h : Handle}
    (live : arena.isLive h = true) (fresh : seen.contains h = false) :
    arena.unseen (h :: seen) < arena.unseen seen :=
  countP_cons_lt (mem_handles_iff.2 live) fresh

end Arena

end PlaneSketch
