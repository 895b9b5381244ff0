import Mathlib
import PlaneSketch.Proofs.Arena
import PlaneSketch.Proofs.Closure
import PlaneSketch.Proofs.Outline
import PlaneSketch.Sketch.Edit

/-!
A drawing without its flawed constraints.

Deleting a constraint leaves all features as they are, and most of what a solve plans depends on
the outlines of features alone: the broken features, what a flaw touches. `trimmed` deletes every
constraint that has a flaw.

* `flaws_trimmed`: what is left has the flaws of features only.
* `compiled_trimmed`: what is left compiles to the same blocks.
-/

namespace PlaneSketch

/-! ### Removing items -/

namespace Arena

variable {τ : Type}

/-- Emptying a place takes away the item with the handle of that place. -/
theorem itemsFrom_modify (start : Nat) {place : Nat} {slots : List (Slot τ)} {slot : Slot τ}
    (found : slots[place]? = some slot) :
    itemsFrom start (slots.modify place fun slot => ⟨none, slot.generation + 1⟩) =
      (itemsFrom start slots).filter fun item =>
        item.1 ≠ ⟨(start + place : Nat), slot.generation⟩ := by
  induction slots generalizing start place with
  | nil => simp at found
  | cons first rest ih =>
    cases place with
    | zero =>
      obtain rfl : first = slot := by simpa using found
      -- later places have larger numbers
      have later : (itemsFrom (start + 1) rest).filter (fun item =>
          item.1 ≠ ⟨(start + 0 : Nat), first.generation⟩) = itemsFrom (start + 1) rest := by
        rw [List.filter_eq_self]
        intro item member
        have above := le_index_of_mem_itemsFrom member
        simp only [decide_eq_true_eq, ne_eq]
        intro same
        rw [same] at above
        simp at above
      rw [List.modify_zero_cons]
      simp only [itemsFrom]
      cases first.item with
      | none => exact later.symm
      | some value => simpa using later.symm
    | succ place =>
      have found' : rest[place]? = some slot := by simpa using found
      have step := ih (start + 1) found'
      have shift : start + 1 + place = start + (place + 1) := by omega
      rw [shift] at step
      rw [List.modify_succ_cons]
      simp only [itemsFrom]
      cases first.item with
      | none => exact step
      | some value =>
        have other : (⟨(start : Nat), first.generation⟩ : Handle) ≠
            ⟨(start + (place + 1) : Nat), slot.generation⟩ := by
          intro same
          have index := congrArg Handle.index same
          simp at index
          omega
        rw [List.filter_cons, if_pos (decide_eq_true other)]
        exact congrArg _ step

/-- **Removing an item** takes away what its handle names, and nothing else. -/
theorem items_remove (arena : Arena τ) (h : Handle) :
    (arena.remove h).items = arena.items.filter fun item => item.1 ≠ h := by
  unfold remove
  split
  · rename_i live
    obtain ⟨slot, found, named⟩ : ∃ slot, arena.slots[h.index.toNat]? = some slot ∧
        h = ⟨(0 + h.index.toNat : Nat), slot.generation⟩ := by
      obtain ⟨value, listed⟩ := Option.isSome_iff_exists.mp live
      obtain ⟨place, slot, found, -, rfl⟩ := mem_itemsFrom.mp (mem_items_iff.mpr listed)
      exact ⟨slot, by simpa using found, by simp⟩
    unfold items
    conv_rhs => rw [named]
    exact itemsFrom_modify 0 found
  · rename_i dead
    symm
    rw [List.filter_eq_self]
    rintro ⟨k, value⟩ listed
    simp only [ne_eq, decide_eq_true_eq]
    rintro rfl
    exact dead (mem_handles_iff.mp (List.mem_map_of_mem listed))

end Arena

/-! ### Without the flawed constraints -/

namespace Sketch

variable {α : Type}

/-- The drawing without some constraints. -/
def withoutConstraints (sketch : Sketch α) (handles : List Handle) : Sketch α :=
  handles.foldl (fun drawn h => (drawn.deleteConstraint h).1) sketch

theorem features_withoutConstraints (sketch : Sketch α) (handles : List Handle) :
    (sketch.withoutConstraints handles).features = sketch.features := by
  induction handles generalizing sketch with
  | nil => rfl
  | cons h handles ih => exact ih _

theorem items_withoutConstraints (sketch : Sketch α) (handles : List Handle) :
    (sketch.withoutConstraints handles).constraints.items = sketch.kept handles := by
  induction handles generalizing sketch with
  | nil => simp [withoutConstraints, kept]
  | cons h handles ih =>
    have step : sketch.withoutConstraints (h :: handles) =
        (sketch.deleteConstraint h).1.withoutConstraints handles := rfl
    rw [step, ih]
    simp only [kept, deleteConstraint, Arena.items_remove, List.filter_filter]
    refine List.filter_congr fun item _ => ?_
    by_cases same : item.1 = h <;> simp [same]

variable [Scalar α] (sketch : Sketch α)

/-- The drawing without the constraints that have a flaw. -/
def trimmed : Sketch α := sketch.withoutConstraints (Plan.flawedConstraints sketch.flaws)

theorem features_trimmed : sketch.trimmed.features = sketch.features :=
  sketch.features_withoutConstraints _

theorem alike_trimmed : sketch.Alike sketch.trimmed := .of_features_eq sketch.features_trimmed

theorem ofSketch_trimmed : Pool.ofSketch sketch.trimmed = Pool.ofSketch sketch := by
  rw [Pool.ofSketch, Pool.ofSketch, features_trimmed]

/-- **Only the flaws of features are left.** -/
theorem flaws_trimmed : sketch.trimmed.flaws = sketch.featureFlaws ++ sketch.cycleFlaws := by
  have alike := sketch.alike_trimmed
  have none : sketch.trimmed.constraintFlaws
      (sketch.brokenFeatures (sketch.featureFlaws ++ sketch.cycleFlaws)) = [] := by
    rw [constraintFlaws, List.filterMap_eq_nil_iff, trimmed, items_withoutConstraints]
    rintro ⟨h, constraint⟩ listed
    obtain ⟨found, sound⟩ := mem_kept_iff.mp listed
    rw [Option.map_eq_none_iff]
    rw [constraintFault?_congr (.of_features_eq (sketch.features_withoutConstraints _)),
      ← brokenFeatures_flaws]
    exact constraintFault?_eq_none_of_not_flawed found sound
  have broken : ∀ flaws, sketch.trimmed.brokenFeatures flaws = sketch.brokenFeatures flaws :=
    fun flaws => spreadBroken_congr alike _
  rw [flaws, featureFlaws_congr alike, cycleFlaws_congr alike, broken, none, List.append_nil]

theorem flaws_trimmed_subset : sketch.trimmed.flaws ⊆ sketch.flaws := by
  rw [flaws_trimmed]
  exact List.subset_append_left _ _

/-- The same features are broken. -/
theorem brokenFeatures_trimmed :
    sketch.trimmed.brokenFeatures sketch.trimmed.flaws = sketch.brokenFeatures sketch.flaws := by
  have ours : sketch.brokenFeatures sketch.flaws =
      sketch.brokenFeatures (sketch.featureFlaws ++ sketch.cycleFlaws) := brokenFeatures_flaws
  rw [ours, flaws_trimmed]
  exact spreadBroken_congr sketch.alike_trimmed _

/-- **What is left compiles to the same blocks**, and binds the same points. -/
theorem compiled_trimmed (pool : Pool α) :
    Plan.compiled sketch.trimmed pool sketch.trimmed.flaws =
      Plan.compiled sketch pool sketch.flaws := by
  have alike := sketch.alike_trimmed
  have flawless : Plan.flawedConstraints sketch.trimmed.flaws = [] := by
    rw [Plan.flawedConstraints, flaws_trimmed, List.filterMap_eq_nil_iff]
    exact fun flaw listed => constraint?_of_featureFlaw listed
  have constraints : (sketch.trimmed.constraints.items.filter fun item =>
      !([] : List Handle).contains item.1) =
        sketch.kept (Plan.flawedConstraints sketch.flaws) := by
    rw [trimmed, items_withoutConstraints]
    simp
  rw [Plan.compiled, Plan.compiled, flawless, brokenFeatures_trimmed, compile, compile,
    constraints]
  simp only [compileConstraints_congr alike, arcBlocks_congr alike, kept]

end Sketch

end PlaneSketch
