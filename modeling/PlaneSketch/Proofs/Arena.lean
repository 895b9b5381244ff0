import PlaneSketch.Arena

/-!
The items of an arena, place by place.

* `nodup_handles`: no two items have the same handle.
* `eq_of_index_eq`: nor handles with the same index.
* `itemsFrom_append`: the items of places added come behind those that were there.
* `get?_behind`: what is put behind the places of another arena is found under a handle moved along.
-/

namespace PlaneSketch.Arena

variable {τ : Type}

theorem le_index_of_mem_itemsFrom {start : Nat} {slots : List (Slot τ)} {item : Handle × τ}
    (member : item ∈ itemsFrom start slots) : (start : Int) ≤ item.1.index := by
  obtain ⟨h, value⟩ := item
  obtain ⟨place, slot, -, -, rfl⟩ := mem_itemsFrom.mp member
  simp only [Int.natCast_add]
  omega

theorem nodup_itemsFrom (start : Nat) (slots : List (Slot τ)) :
    ((itemsFrom start slots).map (·.1)).Nodup := by
  induction slots generalizing start with
  | nil => exact List.nodup_nil
  | cons slot rest ih =>
    rw [itemsFrom]
    split
    · rw [List.map_cons, List.nodup_cons]
      refine ⟨fun repeated => ?_, ih (start + 1)⟩
      -- later places have larger numbers
      obtain ⟨item, later, same⟩ := List.mem_map.mp repeated
      have above := le_index_of_mem_itemsFrom later
      rw [same] at above
      simp only [Int.natCast_add] at above
      omega
    · exact ih (start + 1)

/-- **No two items have the same handle.** -/
theorem nodup_handles (arena : Arena τ) : arena.handles.Nodup := nodup_itemsFrom 0 arena.slots

/-- The items of some places and of those behind them. -/
theorem itemsFrom_append (start : Nat) (slots more : List (Slot τ)) :
    itemsFrom start (slots ++ more) =
      itemsFrom start slots ++ itemsFrom (start + slots.length) more := by
  induction slots generalizing start with
  | nil => rfl
  | cons slot rest ih =>
    have shift : start + 1 + rest.length = start + (rest.length + 1) := by omega
    rw [List.cons_append, itemsFrom, itemsFrom, ih, List.length_cons, shift]
    split <;> rfl

/-- The items of new places are those put there. -/
theorem exists_of_mem_itemsFrom {υ : Type} {start : Nat} {items : List υ} {change : υ → τ}
    {item : Handle × τ}
    (member : item ∈ itemsFrom start (items.map fun a => ⟨some (change a), 0⟩)) :
    ∃ a ∈ items, item.2 = change a := by
  obtain ⟨h, value⟩ := item
  obtain ⟨place, slot, found, held, -⟩ := mem_itemsFrom.mp member
  obtain ⟨a, listed, rfl⟩ := List.mem_map.mp (List.mem_of_getElem? found)
  exact ⟨a, listed, (Option.some.inj held).symm⟩

/-- Nothing is named by a handle with the number of a later place. -/
theorem isLive_eq_false_of_length_le {arena : Arena τ} {h : Handle}
    (beyond : (arena.slots.length : Int) ≤ h.index) : arena.isLive h = false := by
  have vacant : arena.slots[h.index.toNat]? = none := List.getElem?_eq_none (by omega)
  simp [isLive, get?, slot?, vacant]

theorem index_nonneg_of_isLive {arena : Arena τ} {h : Handle} (live : arena.isLive h = true) :
    0 ≤ h.index := by
  obtain ⟨item, member, rfl⟩ := List.mem_map.mp (mem_handles_iff.mpr live)
  exact le_index_of_mem_itemsFrom member

/-- The place of a handle that names an item. -/
theorem slot?_of_get? {arena : Arena τ} {h : Handle} {item : τ}
    (found : arena.get? h = some item) :
    arena.slot? h = some ⟨some item, h.generation.toNat⟩ ∧ 0 ≤ h.generation := by
  unfold get? at found
  split at found
  · rename_i slot there
    split at found
    · rename_i current
      obtain ⟨held, generation⟩ := slot
      dsimp only at current found
      rw [found] at there
      rw [there, ← current]
      simp
    · cases found
  · cases found

/-- Live handles have different indices. -/
theorem eq_of_index_eq {arena : Arena τ} {h k : Handle} (live : arena.isLive h = true)
    (live' : arena.isLive k = true) (same : h.index = k.index) : h = k := by
  obtain ⟨item, found⟩ := Option.isSome_iff_exists.mp live
  obtain ⟨item', found'⟩ := Option.isSome_iff_exists.mp live'
  obtain ⟨there, nonneg⟩ := slot?_of_get? found
  obtain ⟨there', nonneg'⟩ := slot?_of_get? found'
  have place : arena.slot? h = arena.slot? k := by
    unfold slot?
    rw [same]
  rw [there, there', Option.some.injEq, Slot.mk.injEq] at place
  obtain ⟨index, generation⟩ := h
  obtain ⟨index', generation'⟩ := k
  dsimp only at *
  rw [Handle.mk.injEq]
  omega

/-! ### Behind another arena -/

/-- Nothing was ever removed. -/
def Whole (arena : Arena τ) : Prop :=
  ∀ slot ∈ arena.slots, slot.generation = 0 ∧ slot.item.isSome = true

/-- Where nothing was removed, each place is that of an item. -/
theorem Whole.map_items {arena : Arena τ} (whole : arena.Whole) (change : τ → τ) :
    (arena.items.map fun item => (⟨some (change item.2), 0⟩ : Slot τ)) =
      arena.slots.map fun slot => ⟨slot.item.map change, 0⟩ := by
  obtain ⟨slots⟩ := arena
  suffices places : ∀ start, ((itemsFrom start slots).map fun item =>
      (⟨some (change item.2), 0⟩ : Slot τ)) = slots.map fun slot => ⟨slot.item.map change, 0⟩ from
    places 0
  unfold Whole at whole
  dsimp only at whole
  induction slots with
  | nil => exact fun _ => rfl
  | cons slot rest ih =>
    intro start
    obtain ⟨⟨-, filled⟩, whole⟩ := List.forall_mem_cons.mp whole
    obtain ⟨item, held⟩ := Option.isSome_iff_exists.mp filled
    rw [itemsFrom, held, List.map_cons, List.map_cons, ih whole, held]
    rfl

/-- **What is put behind the places of another arena** is found under a handle moved along. -/
theorem get?_behind {arena more joint : Arena τ} {change : τ → τ} {h : Handle} {item : τ}
    (whole : more.Whole)
    (slots : joint.slots = arena.slots ++ more.items.map fun item => ⟨some (change item.2), 0⟩)
    (found : more.get? h = some item) :
    joint.get? ⟨h.index + arena.slots.length, h.generation⟩ = some (change item) := by
  have live : more.isLive h = true := by
    rw [isLive, found]
    rfl
  have nonneg := index_nonneg_of_isLive live
  have place : (h.index + arena.slots.length).toNat = arena.slots.length + h.index.toNat := by omega
  unfold get? slot? at found ⊢
  dsimp only at found ⊢
  rw [if_neg (by omega)] at found ⊢
  rw [slots, whole.map_items, place, List.getElem?_append_right (by omega), Nat.add_sub_cancel_left,
    List.getElem?_map]
  cases held : more.slots[h.index.toNat]? with
  | none =>
    rw [held] at found
    cases found
  | some slot =>
    have first := (whole slot (List.mem_of_getElem? held)).1
    rw [held] at found
    dsimp only at found
    split at found
    · rename_i same
      have zero : h.generation = 0 := by rw [← same, first, Int.natCast_zero]
      simp [zero, found]
    · cases found

end PlaneSketch.Arena
