import PlaneSketch.Sketch.Lookup

/-!
Changing a drawing.

Deleting a feature deletes what is built on it as well: first the constraints that refer to it,
then, one after the other, the features that refer to it. Each deletion makes one feature fewer,
so that the cascade ends on every drawing, whatever refers to what.
-/

namespace PlaneSketch

namespace Sketch

variable {α : Type}

/-- The drawing without one feature, without the constraints that refer to it, and without its
mention in groups. -/
def removeFeature (sketch : Sketch α) (h : Handle) : Sketch α where
  features := sketch.features.remove h
  constraints := (sketch.constraintsOn h).foldl Arena.remove sketch.constraints
  groups := sketch.groups.map fun group =>
    { group with members := group.members.filter fun member => member ≠ h }

/-- Places that hold a feature. -/
def liveCount (sketch : Sketch α) : Nat := sketch.features.slots.countP (·.item.isSome)

end Sketch

namespace Arena

variable {τ : Type}

theorem slot?_of_isLive {arena : Arena τ} {h : Handle} (live : arena.isLive h = true) :
    ∃ slot, arena.slots[h.index.toNat]? = some slot ∧ slot.item.isSome = true := by
  unfold isLive get? slot? at live
  split at live
  · rename_i slot found
    split at found
    · cases found
    · refine ⟨slot, found, ?_⟩
      split at live
      · exact live
      · cases live
  · cases live

/-- Removing a live item leaves one place fewer with an item. -/
theorem countP_remove_lt {arena : Arena τ} {h : Handle} (live : arena.isLive h = true) :
    (arena.remove h).slots.countP (·.item.isSome) < arena.slots.countP (·.item.isSome) := by
  obtain ⟨slot, found, occupied⟩ := slot?_of_isLive live
  unfold remove
  rw [if_pos live]
  generalize h.index.toNat = place at found
  generalize arena.slots = slots at found
  induction slots generalizing place with
  | nil => simp at found
  | cons first rest ih =>
    cases place with
    | zero =>
      simp only [List.getElem?_cons_zero, Option.some.injEq] at found
      subst found
      simp [occupied]
    | succ place =>
      simp only [List.getElem?_cons_succ] at found
      have step := ih place found
      simp only [List.modify_succ_cons, List.countP_cons] at step ⊢
      omega

end Arena

namespace Sketch

variable {α : Type}

theorem liveCount_removeFeature_lt {sketch : Sketch α} {h : Handle}
    (live : sketch.isLive h = true) :
    (sketch.removeFeature h).liveCount < sketch.liveCount :=
  Arena.countP_remove_lt live

/-- Delete the features waiting in a list, each followed by the features built on it. -/
def deleteAll (sketch : Sketch α) : List Handle → Sketch α
  | [] => sketch
  | h :: waiting =>
    if sketch.isLive h then
      deleteAll (sketch.removeFeature h) (sketch.dependents h ++ waiting)
    else deleteAll sketch waiting
  termination_by waiting => (sketch.liveCount, waiting.length)
  decreasing_by
    · exact Prod.Lex.left _ _ (liveCount_removeFeature_lt (by assumption))
    · exact Prod.Lex.right _ (by simp)

/-- Delete a feature and what is built on it; says whether there was such a feature. -/
def deleteFeature (sketch : Sketch α) (h : Handle) : Sketch α × Bool :=
  (sketch.deleteAll [h], sketch.isLive h)

/-- Delete a constraint; says whether there was such a constraint. -/
def deleteConstraint (sketch : Sketch α) (h : Handle) : Sketch α × Bool :=
  ({ sketch with constraints := sketch.constraints.remove h }, sketch.constraints.isLive h)

/-- Give features new numbers. Numbers of features that are gone are passed over; the second
part of the answer counts the others. -/
def apply (sketch : Sketch α) (values : List (Variable × α)) : Sketch α × Nat :=
  values.foldl (fun (drawn, count) (v, value) =>
    if drawn.isLive v.handle then
      ({ drawn with features := drawn.features.update v.handle (·.withValue v.component value) },
        count + 1)
    else (drawn, count)) (sketch, 0)

end Sketch

end PlaneSketch
