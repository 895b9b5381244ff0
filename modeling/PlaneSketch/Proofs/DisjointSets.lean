import Mathlib.Logic.Relation
import PlaneSketch.DisjointSets

/-!
What the disjoint sets compute.

A `Forest` is a family of sets in which every parent is an item and ranks grow from an item to its
parent. In a forest each item has a root, and `root_eq_of_invariant` says which function the root
is: any function that keeps its value along parents and fixes the items on top. Adding an item,
shortening a way and joining two roots are read off it.

`Represents sets R` says that two items have the same root exactly when a chain of `R`-steps joins
them. It holds of no items and no steps, and each join adds the pair joined to the steps.
-/

namespace PlaneSketch.DisjointSets

variable {κ : Type} [DecidableEq κ]

/-- Every parent is an item, and ranks grow from an item to its parent. -/
structure Forest (sets : DisjointSets κ) : Prop where
  contains_parent : ∀ {a : κ}, sets.contains a = true → sets.contains (sets.parent a) = true
  rank_lt : ∀ {a : κ}, sets.parent a ≠ a → sets.rank a < sets.rank (sets.parent a)

/-! ### Roots -/

theorem parent_of_not_contains {sets : DisjointSets κ} {a : κ} (absent : sets.contains a = false) :
    sets.parent a = a := by
  have none : sets.node? a = none := by simpa [contains] using absent
  simp [parent, none]

namespace Forest

variable {sets : DisjointSets κ}

/-- What holds of the items on top, and of an item when it holds of its parent, holds of all. -/
theorem induction (forest : sets.Forest) {P : κ → Prop}
    (top : ∀ a, sets.parent a = a → P a)
    (below : ∀ a, sets.parent a ≠ a → P (sets.parent a) → P a) (a : κ) : P a := by
  generalize gap : sets.height - sets.rank a = n
  induction n using Nat.strongRecOn generalizing a with
  | ind n ih =>
    by_cases fixed : sets.parent a = a
    · exact top a fixed
    · have rising := forest.rank_lt fixed
      have bounded := sets.rank_le_height (sets.parent a)
      exact below a fixed (ih _ (by omega) _ rfl)

theorem way_of_parent_eq {a : κ} (fixed : sets.parent a = a) : sets.way a = [a] := by
  unfold way
  rw [if_pos fixed]

theorem way_of_parent_ne (forest : sets.Forest) {a : κ} (moves : sets.parent a ≠ a) :
    sets.way a = a :: sets.way (sets.parent a) := by
  rw [way.eq_def sets a, if_neg moves, dif_pos (forest.rank_lt moves)]

theorem root_of_parent_eq {a : κ} (fixed : sets.parent a = a) : sets.root a = a := by
  simp [root, way_of_parent_eq fixed]

theorem way_ne_nil (forest : sets.Forest) (a : κ) : sets.way a ≠ [] := by
  by_cases fixed : sets.parent a = a
  · simp [way_of_parent_eq fixed]
  · simp [forest.way_of_parent_ne fixed]

theorem root_parent (forest : sets.Forest) (a : κ) :
    sets.root (sets.parent a) = sets.root a := by
  by_cases fixed : sets.parent a = a
  · rw [fixed]
  · have nonempty := forest.way_ne_nil (sets.parent a)
    simp [root, forest.way_of_parent_ne fixed, nonempty, List.getLast?_eq_some_getLast,
      List.getLast_cons nonempty]

/-- The root is the only function that keeps its value along parents and fixes the items on
top. -/
theorem root_eq_of_invariant (forest : sets.Forest) {g : κ → κ}
    (top : ∀ a, sets.parent a = a → g a = a)
    (along : ∀ a, sets.parent a ≠ a → g (sets.parent a) = g a) (a : κ) :
    sets.root a = g a := by
  induction a using forest.induction with
  | top a fixed => rw [root_of_parent_eq fixed, top a fixed]
  | below a moves ih => rw [← forest.root_parent a, ih, along a moves]

theorem parent_root (forest : sets.Forest) (a : κ) : sets.parent (sets.root a) = sets.root a := by
  induction a using forest.induction with
  | top a fixed => rw [root_of_parent_eq fixed, fixed]
  | below a moves ih => rwa [forest.root_parent] at ih

theorem contains_root (forest : sets.Forest) {a : κ} (member : sets.contains a = true) :
    sets.contains (sets.root a) = true := by
  induction a using forest.induction with
  | top a fixed => rwa [root_of_parent_eq fixed]
  | below a moves ih =>
    rw [← forest.root_parent]
    exact ih (forest.contains_parent member)

/-- Ranks below a root are lower than that of the root. -/
theorem rank_lt_root (forest : sets.Forest) {a : κ} (below : sets.root a ≠ a) :
    sets.rank a < sets.rank (sets.root a) := by
  induction a using forest.induction with
  | top a fixed => exact absurd (root_of_parent_eq fixed) below
  | below a moves ih =>
    have rising := forest.rank_lt moves
    rw [← forest.root_parent]
    by_cases arrived : sets.root (sets.parent a) = sets.parent a
    · rwa [arrived]
    · exact Nat.lt_trans rising (ih arrived)

/-- The items on the way from an item have the root of that item. -/
theorem root_of_mem_way (forest : sets.Forest) {a b : κ} (onWay : b ∈ sets.way a) :
    sets.root b = sets.root a := by
  induction a using forest.induction with
  | top a fixed =>
    rw [way_of_parent_eq fixed, List.mem_singleton] at onWay
    rw [onWay]
  | below a moves ih =>
    rw [forest.way_of_parent_ne moves, List.mem_cons] at onWay
    rcases onWay with rfl | later
    · rfl
    · rw [ih later, forest.root_parent]

end Forest

/-! ### No items, and one item more -/

@[simp] theorem contains_empty (a : κ) : (empty : DisjointSets κ).contains a = false := rfl

@[simp] theorem parent_empty (a : κ) : (empty : DisjointSets κ).parent a = a := rfl

theorem forest_empty : (empty : DisjointSets κ).Forest where
  contains_parent member := by simp at member
  rank_lt moves := by simp at moves

theorem node?_add (sets : DisjointSets κ) (a b : κ) :
    (sets.add a).node? b =
      if sets.contains a = false ∧ a = b then some ⟨a, a, 0⟩ else sets.node? b := by
  unfold add
  by_cases present : sets.contains a = true
  · simp [present]
  · have absent : sets.contains a = false := by simpa using present
    simp only [absent, Bool.false_eq_true, ↓reduceIte, true_and, node?, List.find?_append]
    by_cases same : a = b
    · subst same
      have none : sets.node? a = none := by simpa [contains] using absent
      rw [node?] at none
      simp [none]
    · simp [same]

@[simp] theorem contains_add (sets : DisjointSets κ) (a b : κ) :
    (sets.add a).contains b = (sets.contains b || decide (a = b)) := by
  rw [contains, node?_add]
  by_cases same : a = b
  · subst same
    cases found : sets.node? a <;> simp [contains, found]
  · simp [same, contains]

@[simp] theorem parent_add (sets : DisjointSets κ) (a b : κ) :
    (sets.add a).parent b = sets.parent b := by
  rw [parent, node?_add]
  split
  · rename_i fresh
    obtain ⟨absent, rfl⟩ := fresh
    simp [parent_of_not_contains absent]
  · rfl

@[simp] theorem rank_add (sets : DisjointSets κ) (a b : κ) :
    (sets.add a).rank b = sets.rank b := by
  rw [rank, node?_add]
  split
  · rename_i fresh
    obtain ⟨absent, rfl⟩ := fresh
    have none : sets.node? a = none := by simpa [contains] using absent
    simp [rank, none]
  · rfl

theorem Forest.add {sets : DisjointSets κ} (forest : sets.Forest) (a : κ) :
    (sets.add a).Forest where
  contains_parent {b} member := by
    simp only [contains_add, parent_add, Bool.or_eq_true, decide_eq_true_eq] at member ⊢
    by_cases present : sets.contains b = true
    · exact .inl (forest.contains_parent present)
    · rw [parent_of_not_contains (by simpa using present)]
      exact member
  rank_lt {b} moves := by
    simp only [parent_add, rank_add] at moves ⊢
    exact forest.rank_lt moves

theorem Forest.root_add {sets : DisjointSets κ} (forest : sets.Forest) (a b : κ) :
    (sets.add a).root b = sets.root b :=
  (forest.add a).root_eq_of_invariant
    (fun _ fixed => root_of_parent_eq (by simpa using fixed))
    (fun c _ => by rw [parent_add]; exact forest.root_parent c) b

/-! ### Items made to point elsewhere -/

theorem node?_redirect (sets : DisjointSets κ) (items : List κ) (target b : κ) :
    (sets.redirect items target).node? b =
      (sets.node? b).map fun node =>
        if b ∈ items then { node with parent := target } else node := by
  unfold node? redirect
  rw [List.find?_map]
  have same : ((fun node : SetNode κ => decide (node.item = b)) ∘ fun node =>
      if node.item ∈ items then { node with parent := target } else node) =
      fun node => decide (node.item = b) := by
    funext node
    simp only [Function.comp_apply]
    split <;> rfl
  rw [same]
  cases found : sets.nodes.find? fun node => decide (node.item = b) with
  | none => rfl
  | some node =>
    have item : node.item = b := by simpa using List.find?_some found
    simp [item]

@[simp] theorem contains_redirect (sets : DisjointSets κ) (items : List κ) (target b : κ) :
    (sets.redirect items target).contains b = sets.contains b := by
  simp [contains, node?_redirect]

@[simp] theorem rank_redirect (sets : DisjointSets κ) (items : List κ) (target b : κ) :
    (sets.redirect items target).rank b = sets.rank b := by
  rw [rank, node?_redirect, rank]
  cases sets.node? b with
  | none => rfl
  | some node => simp only [Option.map_some, Option.getD_some]; split <;> rfl

theorem parent_redirect (sets : DisjointSets κ) (items : List κ) (target b : κ) :
    (sets.redirect items target).parent b =
      if sets.contains b = true ∧ b ∈ items then target else sets.parent b := by
  rw [parent, node?_redirect, contains, parent]
  cases sets.node? b with
  | none => simp
  | some node =>
    by_cases listed : b ∈ items <;> simp [listed]

/-! ### Looking an item up -/

/-- Shortening a way to a root of the items on it. -/
theorem Forest.redirect_root {sets : DisjointSets κ} (forest : sets.Forest) {items : List κ}
    {r : κ} (member : sets.contains r = true) (rooted : ∀ b ∈ items, sets.root b = r) :
    (sets.redirect items r).Forest where
  contains_parent {b} present := by
    simp only [contains_redirect, parent_redirect] at present ⊢
    split
    · exact member
    · exact forest.contains_parent present
  rank_lt {b} moves := by
    simp only [rank_redirect, parent_redirect] at moves ⊢
    split
    · rename_i redirected
      rw [if_pos redirected] at moves
      have root := rooted b redirected.2
      have rising := forest.rank_lt_root (a := b) (by rw [root]; exact moves)
      rwa [root] at rising
    · rename_i kept
      rw [if_neg kept] at moves
      exact forest.rank_lt moves

theorem Forest.root_redirect_root {sets : DisjointSets κ} (forest : sets.Forest)
    {items : List κ} {r : κ} (member : sets.contains r = true) (top : sets.parent r = r)
    (rooted : ∀ b ∈ items, sets.root b = r) (a : κ) :
    (sets.redirect items r).root a = sets.root a := by
  apply (forest.redirect_root member rooted).root_eq_of_invariant
  · intro b fixed
    rw [parent_redirect] at fixed
    split at fixed
    · rw [← fixed, root_of_parent_eq top]
    · exact root_of_parent_eq fixed
  · intro b _
    rw [parent_redirect]
    split
    · rename_i redirected
      rw [root_of_parent_eq top, rooted b redirected.2]
    · exact forest.root_parent b

section Find

variable {sets : DisjointSets κ}

theorem contains_find (sets : DisjointSets κ) (a b : κ) :
    (sets.find a).2.contains b = (sets.contains b || decide (a = b)) := by
  simp [find]

theorem Forest.find_fst (forest : sets.Forest) (a : κ) : (sets.find a).1 = sets.root a :=
  forest.root_add a a

theorem Forest.find_snd (forest : sets.Forest) (a : κ) : (sets.find a).2.Forest :=
  (forest.add a).redirect_root ((forest.add a).contains_root (by simp))
    fun _ onWay => (forest.add a).root_of_mem_way onWay

/-- Looking an item up changes no root. -/
theorem Forest.root_find (forest : sets.Forest) (a b : κ) :
    (sets.find a).2.root b = sets.root b := by
  have known := forest.add a
  have unchanged := known.root_redirect_root (known.contains_root (by simp))
    (known.parent_root a) (fun _ onWay => known.root_of_mem_way onWay) b
  rw [← forest.root_add a b]
  exact unchanged

end Find

/-! ### Joining two sets -/

theorem node?_promote (sets : DisjointSets κ) (a b : κ) :
    (sets.promote a).node? b =
      (sets.node? b).map fun node =>
        if b = a then { node with rank := node.rank + 1 } else node := by
  unfold node? promote
  rw [List.find?_map]
  have same : ((fun node : SetNode κ => decide (node.item = b)) ∘ fun node =>
      if node.item = a then { node with rank := node.rank + 1 } else node) =
      fun node => decide (node.item = b) := by
    funext node
    simp only [Function.comp_apply]
    split <;> rfl
  rw [same]
  cases found : sets.nodes.find? fun node => decide (node.item = b) with
  | none => rfl
  | some node =>
    have item : node.item = b := by simpa using List.find?_some found
    simp [item]

@[simp] theorem contains_promote (sets : DisjointSets κ) (a b : κ) :
    (sets.promote a).contains b = sets.contains b := by
  simp [contains, node?_promote]

@[simp] theorem parent_promote (sets : DisjointSets κ) (a b : κ) :
    (sets.promote a).parent b = sets.parent b := by
  rw [parent, node?_promote, parent]
  cases sets.node? b with
  | none => rfl
  | some node => simp only [Option.map_some, Option.getD_some]; split <;> rfl

theorem rank_promote (sets : DisjointSets κ) (a b : κ) :
    (sets.promote a).rank b =
      if sets.contains b = true ∧ b = a then sets.rank b + 1 else sets.rank b := by
  rw [rank, node?_promote, contains, rank]
  cases sets.node? b with
  | none => simp
  | some node => by_cases same : b = a <;> simp [same]

/-- One standing item points to another now, and nothing else changed but the rank of the other,
which is above that of the first. -/
structure Attached (sets joined : DisjointSets κ) (loser winner : κ) : Prop where
  contains_eq : ∀ x, joined.contains x = sets.contains x
  parent_eq : ∀ x, joined.parent x = if x = loser then winner else sets.parent x
  rank_eq : ∀ x, x ≠ winner → joined.rank x = sets.rank x
  rank_le : sets.rank winner ≤ joined.rank winner
  outranked : sets.rank loser < joined.rank winner

namespace Attached

variable {sets joined : DisjointSets κ} {loser winner : κ}

theorem forest (attached : Attached sets joined loser winner) (forest : sets.Forest)
    (member : sets.contains winner = true) (top : sets.parent winner = winner) :
    joined.Forest where
  contains_parent {x} present := by
    rw [attached.contains_eq] at present
    rw [attached.contains_eq, attached.parent_eq]
    split
    · exact member
    · exact forest.contains_parent present
  rank_lt {x} moves := by
    rw [attached.parent_eq] at moves ⊢
    split
    · rename_i lost
      rw [if_pos lost] at moves
      rw [attached.rank_eq x (Ne.symm moves), lost]
      exact attached.outranked
    · rename_i kept
      rw [if_neg kept] at moves
      have rising := forest.rank_lt moves
      have other : x ≠ winner := by
        rintro rfl
        exact moves top
      rw [attached.rank_eq x other]
      by_cases under : sets.parent x = winner
      · rw [under] at rising ⊢
        exact Nat.lt_of_lt_of_le rising attached.rank_le
      · rwa [attached.rank_eq _ under]

/-- The items under the first standing item came under the other one. -/
theorem root_eq (attached : Attached sets joined loser winner) (forest : sets.Forest)
    (member : sets.contains winner = true) (top : sets.parent winner = winner)
    (topLoser : sets.parent loser = loser) (ne : loser ≠ winner) (x : κ) :
    joined.root x = if sets.root x = loser then winner else sets.root x := by
  revert x
  apply (attached.forest forest member top).root_eq_of_invariant
  · intro x fixed
    rw [attached.parent_eq] at fixed
    split at fixed
    · rename_i lost
      exact absurd (lost.symm.trans fixed.symm) ne
    · rename_i kept
      rw [Forest.root_of_parent_eq fixed, if_neg kept]
  · intro x _
    rw [attached.parent_eq]
    split
    · rename_i lost
      rw [lost, Forest.root_of_parent_eq top, Forest.root_of_parent_eq topLoser, if_pos rfl,
        if_neg (Ne.symm ne)]
    · rw [forest.root_parent]

end Attached

section Link

variable {sets : DisjointSets κ} {a b : κ}

theorem attached_redirect (member : sets.contains a = true)
    (outranked : sets.rank a < sets.rank b) : Attached sets (sets.redirect [a] b) a b where
  contains_eq := by simp
  parent_eq x := by
    rw [parent_redirect]
    by_cases same : x = a
    · simp [same, member]
    · simp [same]
  rank_eq := by simp
  rank_le := by simp
  outranked := by simpa using outranked

theorem attached_promote (members : sets.contains a = true ∧ sets.contains b = true)
    (level : sets.rank a = sets.rank b) : Attached sets ((sets.redirect [b] a).promote a) b a where
  contains_eq := by simp
  parent_eq x := by
    rw [parent_promote, parent_redirect]
    by_cases same : x = b
    · simp [same, members.2]
    · simp [same]
  rank_eq x other := by simp [rank_promote, other]
  rank_le := by simp [rank_promote, members.1]
  outranked := by simp [rank_promote, members.1, level]

/-- Joining two standing items gives a forest with the same items, in which one of the two came
under the other. -/
theorem Forest.link (forest : sets.Forest) (memberA : sets.contains a = true)
    (memberB : sets.contains b = true) (topA : sets.parent a = a) (topB : sets.parent b = b) :
    (sets.link a b).Forest ∧ (∀ x, (sets.link a b).contains x = sets.contains x) ∧
      ∀ x y, (sets.link a b).root x = (sets.link a b).root y ↔
        sets.root x = sets.root y ∨ (sets.root x = a ∨ sets.root x = b) ∧
          (sets.root y = a ∨ sets.root y = b) := by
  have merged : ∀ {joined : DisjointSets κ} {loser winner : κ},
      (∀ x, joined.root x = if sets.root x = loser then winner else sets.root x) →
      ∀ x y, joined.root x = joined.root y ↔ sets.root x = sets.root y ∨
        (sets.root x = winner ∨ sets.root x = loser) ∧
          (sets.root y = winner ∨ sets.root y = loser) := by
    intro joined loser winner rooted x y
    rw [rooted, rooted]
    split <;> split <;> grind
  unfold DisjointSets.link
  split
  · rename_i same
    refine ⟨forest, fun _ => rfl, fun x y => ?_⟩
    grind
  · rename_i ne
    split
    · rename_i below
      have attached := attached_redirect memberA below
      refine ⟨attached.forest forest memberB topB, attached.contains_eq, fun x y => ?_⟩
      rw [merged (attached.root_eq forest memberB topB topA ne), or_comm (a := sets.root x = b),
        or_comm (a := sets.root y = b)]
    · split
      · rename_i above
        have attached := attached_redirect memberB above
        exact ⟨attached.forest forest memberA topA, attached.contains_eq,
          merged (attached.root_eq forest memberA topA topB (Ne.symm ne))⟩
      · have attached := attached_promote ⟨memberA, memberB⟩ (by omega)
        exact ⟨attached.forest forest memberA topA, attached.contains_eq,
          merged (attached.root_eq forest memberA topA topB (Ne.symm ne))⟩

/-- Joining two items: the two sets become one, and nothing else changes. -/
theorem Forest.union (forest : sets.Forest) (a b : κ) :
    (sets.union a b).Forest ∧
      (∀ x, (sets.union a b).contains x =
        (sets.contains x || decide (a = x) || decide (b = x))) ∧
      ∀ x y, (sets.union a b).root x = (sets.union a b).root y ↔
        sets.root x = sets.root y ∨ (sets.root x = sets.root a ∨ sets.root x = sets.root b) ∧
          (sets.root y = sets.root a ∨ sets.root y = sets.root b) := by
  have first := forest.find_snd a
  have second := first.find_snd b
  -- Looking up either item moves no root, so the sets before the join have the old roots.
  have rooted : ∀ x, ((sets.find a).2.find b).2.root x = sets.root x := fun x => by
    rw [first.root_find, forest.root_find]
  have union_eq : sets.union a b =
      ((sets.find a).2.find b).2.link (sets.root a) (sets.root b) := by
    show ((sets.find a).2.find b).2.link (sets.find a).1 ((sets.find a).2.find b).1 = _
    rw [forest.find_fst, first.find_fst, forest.root_find]
  have linked := second.link (a := sets.root a) (b := sets.root b)
    (by rw [← rooted]; exact second.contains_root (by simp [contains_find]))
    (by rw [← rooted]; exact second.contains_root (by simp [contains_find]))
    (by rw [← rooted]; exact second.parent_root a)
    (by rw [← rooted]; exact second.parent_root b)
  rw [← union_eq] at linked
  refine ⟨linked.1, fun x => ?_, fun x y => ?_⟩
  · rw [linked.2.1 x, contains_find, contains_find]
  · rw [linked.2.2 x y, rooted, rooted]

end Link

/-! ### The equivalence that the sets stand for -/

/-- Two items have the same root exactly when a chain of steps joins them. -/
structure Represents (sets : DisjointSets κ) (R : κ → κ → Prop) : Prop where
  forest : sets.Forest
  root_eq_iff : ∀ x y, sets.root x = sets.root y ↔ Relation.EqvGen R x y

namespace Represents

variable {sets : DisjointSets κ} {R S : κ → κ → Prop}

/-- Steps that join the same items may be exchanged. -/
theorem congr (represents : sets.Represents R)
    (forth : ∀ x y, R x y → Relation.EqvGen S x y)
    (back : ∀ x y, S x y → Relation.EqvGen R x y) : sets.Represents S where
  forest := represents.forest
  root_eq_iff x y := by
    rw [represents.root_eq_iff]
    constructor
    · intro joined
      induction joined with
      | rel x y step => exact forth x y step
      | refl x => exact .refl x
      | symm x y _ ih => exact .symm _ _ ih
      | trans x y z _ _ ih ih' => exact .trans _ _ _ ih ih'
    · intro joined
      induction joined with
      | rel x y step => exact back x y step
      | refl x => exact .refl x
      | symm x y _ ih => exact .symm _ _ ih
      | trans x y z _ _ ih ih' => exact .trans _ _ _ ih ih'

theorem empty : (DisjointSets.empty : DisjointSets κ).Represents fun _ _ => False where
  forest := forest_empty
  root_eq_iff x y := by
    rw [Forest.root_of_parent_eq (parent_empty x), Forest.root_of_parent_eq (parent_empty y)]
    constructor
    · rintro rfl
      exact .refl x
    · intro joined
      induction joined with
      | rel x y step => exact step.elim
      | refl x => rfl
      | symm x y _ ih => exact ih.symm
      | trans x y z _ _ ih ih' => exact ih.trans ih'

theorem add (represents : sets.Represents R) (a : κ) : (sets.add a).Represents R where
  forest := represents.forest.add a
  root_eq_iff x y := by
    rw [represents.forest.root_add, represents.forest.root_add, represents.root_eq_iff]

/-- **A join adds one step.** -/
theorem union (represents : sets.Represents R) (a b : κ) :
    (sets.union a b).Represents fun x y => R x y ∨ x = a ∧ y = b where
  forest := (represents.forest.union a b).1
  root_eq_iff x y := by
    rw [(represents.forest.union a b).2.2]
    simp only [represents.root_eq_iff]
    have widen : ∀ {x y}, Relation.EqvGen R x y →
        Relation.EqvGen (fun x y => R x y ∨ x = a ∧ y = b) x y :=
      Relation.EqvGen.mono (fun _ _ step => .inl step) _ _
    have step : Relation.EqvGen (fun x y => R x y ∨ x = a ∧ y = b) a b :=
      .rel _ _ (.inr ⟨rfl, rfl⟩)
    constructor
    · rintro (old | ⟨toX, toY⟩)
      · exact widen old
      · have reach : ∀ {x}, Relation.EqvGen R x a ∨ Relation.EqvGen R x b →
            Relation.EqvGen (fun x y => R x y ∨ x = a ∧ y = b) x a := by
          rintro x (toA | toB)
          · exact widen toA
          · exact (widen toB).trans _ _ _ step.symm
        exact (reach toX).trans _ _ _ (reach toY).symm
    · intro joined
      induction joined with
      | rel x y step =>
        rcases step with old | ⟨rfl, rfl⟩
        · exact .inl (.rel _ _ old)
        · exact .inr ⟨.inl (.refl _), .inr (.refl _)⟩
      | refl x => exact .inl (.refl x)
      | symm x y _ ih =>
        rcases ih with old | ⟨toX, toY⟩
        · exact .inl old.symm
        · exact .inr ⟨toY, toX⟩
      | trans x y z _ _ ih ih' =>
        rcases ih with old | ⟨toX, toY⟩
        · rcases ih' with old' | ⟨toY', toZ⟩
          · exact .inl (old.trans _ _ _ old')
          · exact .inr ⟨toY'.imp (old.trans _ _ _) (old.trans _ _ _), toZ⟩
        · rcases ih' with old' | ⟨toY', toZ⟩
          · exact .inr ⟨toX, toY.imp (old'.symm.trans _ _ _) (old'.symm.trans _ _ _)⟩
          · exact .inr ⟨toX, toZ⟩

/-- Joining one item with some others in turn. -/
theorem foldl_union (represents : sets.Represents R) (a : κ) (others : List κ) :
    (others.foldl (fun sets b => sets.union a b) sets).Represents
      fun x y => R x y ∨ x = a ∧ y ∈ others := by
  induction others generalizing sets R with
  | nil => simpa using represents
  | cons b others ih =>
    refine (ih (represents.union a b)).congr (fun x y step => .rel _ _ ?_)
      fun x y step => .rel _ _ ?_
    · rcases step with (old | ⟨rfl, rfl⟩) | ⟨rfl, later⟩
      · exact .inl old
      · exact .inr ⟨rfl, List.mem_cons_self⟩
      · exact .inr ⟨rfl, List.mem_cons_of_mem _ later⟩
    · rcases step with old | ⟨rfl, listed⟩
      · exact .inl (.inl old)
      · rcases List.mem_cons.mp listed with rfl | later
        · exact .inl (.inr ⟨rfl, rfl⟩)
        · exact .inr ⟨rfl, later⟩

/-- **Joining all items of a list adds a step between any two of them.** -/
theorem unionAll (represents : sets.Represents R) (items : List κ) :
    (sets.unionAll items).Represents fun x y => R x y ∨ x ∈ items ∧ y ∈ items := by
  cases items with
  | nil => simpa [DisjointSets.unionAll] using represents
  | cons a others =>
    refine (represents.foldl_union a others).congr (fun x y step => .rel _ _ ?_) fun x y step => ?_
    · rcases step with old | ⟨rfl, listed⟩
      · exact .inl old
      · exact .inr ⟨List.mem_cons_self, List.mem_cons_of_mem _ listed⟩
    · rcases step with old | ⟨listedX, listedY⟩
      · exact .rel _ _ (.inl old)
      · have reach : ∀ {x}, x ∈ a :: others →
            Relation.EqvGen (fun x y => R x y ∨ x = a ∧ y ∈ others) a x := by
          intro x listed
          rcases List.mem_cons.mp listed with rfl | later
          · exact .refl _
          · exact .rel _ _ (.inr ⟨rfl, later⟩)
        exact (reach listedX).symm.trans _ _ _ (reach listedY)

/-- Joining each of several lists adds a step between any two items of one list. -/
theorem foldl_unionAll (represents : sets.Represents R) (groups : List (List κ)) :
    (groups.foldl DisjointSets.unionAll sets).Represents
      fun x y => R x y ∨ ∃ group ∈ groups, x ∈ group ∧ y ∈ group := by
  induction groups generalizing sets R with
  | nil => simpa using represents
  | cons group groups ih =>
    refine (ih (represents.unionAll group)).congr (fun x y step => .rel _ _ ?_)
      fun x y step => .rel _ _ ?_
    · rcases step with (old | both) | ⟨other, later, both⟩
      · exact .inl old
      · exact .inr ⟨group, List.mem_cons_self, both⟩
      · exact .inr ⟨other, List.mem_cons_of_mem _ later, both⟩
    · rcases step with old | ⟨other, listed, both⟩
      · exact .inl (.inl old)
      · rcases List.mem_cons.mp listed with rfl | later
        · exact .inl (.inr both)
        · exact .inr ⟨other, later, both⟩

end Represents

/-! ### The items after a join -/

theorem contains_foldl_union {sets : DisjointSets κ} (forest : sets.Forest) (a x : κ)
    (others : List κ) :
    (others.foldl (fun sets b => sets.union a b) sets).contains x = true ↔
      sets.contains x = true ∨ x ∈ others ∨ others ≠ [] ∧ x = a := by
  induction others generalizing sets with
  | nil => simp
  | cons b others ih =>
    obtain ⟨joined, contains, -⟩ := forest.union a b
    rw [List.foldl_cons, ih joined, contains]
    simp only [Bool.or_eq_true, decide_eq_true_eq, List.mem_cons, ne_eq, reduceCtorEq,
      not_false_eq_true, true_and]
    grind

/-- Joining a list takes its items in, unless there is only one. -/
theorem contains_unionAll {sets : DisjointSets κ} (forest : sets.Forest) (x : κ)
    (items : List κ) :
    (sets.unionAll items).contains x = true ↔
      sets.contains x = true ∨ 2 ≤ items.length ∧ x ∈ items := by
  cases items with
  | nil => simp [unionAll]
  | cons a others =>
    unfold unionAll
    rw [contains_foldl_union forest]
    cases others with
    | nil => simp
    | cons b others => simp; grind

theorem contains_foldl_unionAll {sets : DisjointSets κ} {R : κ → κ → Prop}
    (represents : sets.Represents R) (x : κ) (groups : List (List κ)) :
    (groups.foldl unionAll sets).contains x = true ↔
      sets.contains x = true ∨ ∃ group ∈ groups, 2 ≤ group.length ∧ x ∈ group := by
  induction groups generalizing sets R with
  | nil => simp
  | cons group groups ih =>
    rw [List.foldl_cons, ih (represents.unionAll group), contains_unionAll represents.forest]
    simp only [List.mem_cons, exists_eq_or_imp, or_assoc]

end PlaneSketch.DisjointSets
