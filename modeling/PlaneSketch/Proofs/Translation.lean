import Mathlib
import PlaneSketch.Proofs.Derivative

/-!
Rigid translations and the Jacobian.

A translation gives every point the same velocity and leaves all radii alone. Nothing that is asked
of a drawing notices it, apart from a point that is fixed at a position: the partial derivatives of
every other relation, each times the velocity of its slot, add up to zero (`along_translation`).
Unlike the derivative itself this needs no distance to be long: where a direction is missing, the
vector that stands for it is taken away as often as it is added.

* `along_columns`: the columns of a Jacobian, in which the slots of one variable are merged, see a
  velocity as the slots do.
* `columnsSum_eq_along`: the columns of one component are summed by the translation along it.
-/

namespace PlaneSketch

/-- The velocity of a rigid translation. -/
def translation (u : Vec2 ℝ) : Variable → ℝ := fun v =>
  match v.component with
  | .x => u.x
  | .y => u.y
  | .r => 0

@[simp] theorem velocityOf_translation (u : Vec2 ℝ) (p : Handle) :
    velocityOf (translation u) p = u := rfl

@[simp] theorem translation_radius (u : Vec2 ℝ) (c : Handle) : translation u ⟨c, .r⟩ = 0 := rfl

/-- The relation says nothing of where the drawing stands as a whole. Two numbers that are to be
equal have to be of one axis. -/
def Relation.Movable {α : Type} : Relation α → Prop
  | fixed _ _ => False
  | level a b => a.component = b.component
  | _ => True

/-- A radius does not change. -/
theorem Radius.along_translation (u : Vec2 ℝ) (v : Valuation ℝ) (r : Radius) :
    along r.slots (r.gradient v) (translation u) = 0 := by
  cases r with
  | circle c =>
    simp only [slots, gradient, along_cons, along_nil, translation_radius]
    ring
  | arc start center =>
    simp only [slots, gradient, along_coordinates_cons, along_coordinates_nil,
      velocityOf_translation, Vec2.dot]
    ring

/-- **A translation is in the kernel of every relation that can be moved**, wherever the variables
stand. -/
theorem Relation.along_translation (u : Vec2 ℝ) (v : Valuation ℝ) {relation : Relation ℝ}
    (movable : relation.Movable) :
    ∀ row ∈ relation.gradient v, along relation.slots row (translation u) = 0 := by
  intro row listed
  cases relation with
  | fixed p position => exact movable.elim
  | level a b =>
    obtain rfl := List.mem_singleton.mp listed
    have same : translation u a = translation u b := by
      rw [translation, translation, movable]
    simp only [slots, along_cons, along_nil, same]
    ring
  | radius r size =>
    obtain rfl := List.mem_singleton.mp listed
    exact r.along_translation u v
  | radiusRatio r s ratio =>
    obtain rfl := List.mem_singleton.mp listed
    rw [slots, along_append (length_gradient_radius v r), along_map_mul, r.along_translation,
      s.along_translation]
    ring
  | onCircle p center circle =>
    obtain rfl := List.mem_singleton.mp listed
    simp only [slots, coordinates, List.flatMap_cons, List.flatMap_nil, List.cons_append,
      List.nil_append, along_cons, along_nil, translation]
    ring
  | offset | coincident | midpoint | between | reflected =>
    simp only [gradient, List.mem_cons, List.not_mem_nil, or_false] at listed
    rcases listed with rfl | rfl
    all_goals
      simp only [slots, along_coordinates_cons, along_coordinates_nil, velocityOf_translation,
        Vec2.dot, Scalar.two_real, Scalar.half_real]
      ring
  | _ =>
    obtain rfl := List.mem_singleton.mp listed
    simp only [slots, along_coordinates_cons, along_coordinates_nil, velocityOf_translation,
      byEnds, List.zipWith_cons_cons, List.zipWith_nil_left, Vec2.dot]
    ring

/-! ### Columns -/

section Columns

variable {velocity : Variable → ℝ} {free slots : List Variable}

/-- The slots of one variable, each with its partial derivative, make up the column of the variable:
what is summed over slots can be summed over columns. -/
theorem along_columns (distinct : free.Nodup) (within : slots ⊆ free) (partials : List ℝ) :
    along free (free.map (Block.partialBy slots partials)) velocity =
      along slots partials velocity := by
  have columns : along free (free.map (Block.partialBy slots partials)) velocity =
      ∑ w ∈ free.toFinset, along slots partials (fun v => if v = w then 1 else 0) * velocity w := by
    rw [List.sum_toFinset _ distinct, along, List.zipWith_map_right, List.zipWith_self]
    simp only [along_indicator]
  rw [columns]
  clear columns
  induction slots generalizing partials with
  | nil => simp
  | cons v slots ih =>
    cases partials with
    | nil => simp [along]
    | cons p partials =>
      obtain ⟨here, within⟩ := List.cons_subset.mp within
      have own : ∑ w ∈ free.toFinset, p * (if v = w then 1 else 0) * velocity w =
          p * velocity v := by
        simp [here]
      simp only [along_cons, add_mul, Finset.sum_add_distrib, own, ih within]

/-- The entries of a row in the columns of one component, added up. -/
def columnsSum (component : Component) (free : List Variable) (row : List ℝ) : ℝ :=
  (((free.zip row).filter fun entry => entry.1.component = component).map (·.2)).sum

/-- The columns of one axis are summed by the translation along it. -/
theorem columnsSum_eq_along (free : List Variable) (row : List ℝ) :
    columnsSum .x free row = along free row (translation ⟨1, 0⟩) ∧
      columnsSum .y free row = along free row (translation ⟨0, 1⟩) := by
  induction free generalizing row with
  | nil => simp [columnsSum]
  | cons v free ih =>
    cases row with
    | nil => simp [columnsSum, along]
    | cons e row =>
      obtain ⟨h, component⟩ := v
      obtain ⟨sumX, sumY⟩ := ih row
      unfold columnsSum at sumX sumY ⊢
      cases component <;> simp [translation, sumX, sumY]

end Columns

/-! ### Equations that nothing holds in place -/

/-- Equations over variables that are all free, none of which says where the drawing stands. -/
structure Equations.Floats {α : Type} (system : Equations α) : Prop where
  distinct : system.free.Nodup
  within : ∀ block ∈ system.blocks, block.relation.slots ⊆ system.free
  movable : ∀ block ∈ system.blocks, block.relation.Movable

namespace Equations.Floats

variable {system : Equations ℝ}

/-- **No row of the Jacobian notices a translation** of the free variables. -/
theorem along_translation (floats : system.Floats) (u : Vec2 ℝ) (x : List ℝ) :
    ∀ row ∈ system.jacobian x, along system.free row (translation u) = 0 := by
  intro row listed
  obtain ⟨block, member, listed⟩ := List.mem_flatMap.mp listed
  obtain ⟨partials, found, rfl⟩ := List.mem_map.mp listed
  rw [along_columns floats.distinct (floats.within block member)]
  exact block.relation.along_translation u _ (floats.movable block member) partials found

/-- The columns of each axis add up to zero in every row. -/
theorem columnsSum_eq_zero (floats : system.Floats) (x : List ℝ) :
    ∀ row ∈ system.jacobian x,
      columnsSum .x system.free row = 0 ∧ columnsSum .y system.free row = 0 := by
  intro row listed
  obtain ⟨sumX, sumY⟩ := columnsSum_eq_along system.free row
  rw [sumX, sumY]
  exact ⟨floats.along_translation _ x row listed, floats.along_translation _ x row listed⟩

end Equations.Floats

end PlaneSketch
