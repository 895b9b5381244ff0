import Mathlib.Data.List.Nodup
import Mathlib.Logic.Function.Iterate
import PlaneSketch.Proofs.DisjointSets

/-!
What any sequence of calls makes of disjoint sets.

`Finds` tells how an item is looked up: one parent after the other up to an item that stands for
its set, and on the way back every item passed is made to point there. It is told without a bound
on the way, so that it says something that `find` comes to an end as it says.

* `Forest.finds_iff`: looking up is what `find` does at once.
* `Represents.run`: calls that look up or add an item join nothing, the others join what they name.
* `groups_run`: after any sequence of calls from no sets, each item is found, two items are found
  in one set exactly when a chain of joins connects them, and the parents make a forest in which
  ranks grow.
-/

namespace PlaneSketch.DisjointSets

variable {κ : Type} [DecidableEq κ]

/-! ### No item twice -/

/-- No item has two nodes. -/
def Distinct (sets : DisjointSets κ) : Prop := (sets.nodes.map (·.item)).Nodup

theorem items_redirect (sets : DisjointSets κ) (items : List κ) (target : κ) :
    (sets.redirect items target).nodes.map (·.item) = sets.nodes.map (·.item) := by
  unfold redirect
  rw [List.map_map]
  refine List.map_congr_left fun node _ => ?_
  simp only [Function.comp_apply]
  split <;> rfl

theorem items_promote (sets : DisjointSets κ) (a : κ) :
    (sets.promote a).nodes.map (·.item) = sets.nodes.map (·.item) := by
  unfold promote
  rw [List.map_map]
  refine List.map_congr_left fun node _ => ?_
  simp only [Function.comp_apply]
  split <;> rfl

theorem not_mem_items_of_not_contains {sets : DisjointSets κ} {a : κ}
    (absent : sets.contains a = false) : a ∉ sets.nodes.map (·.item) := by
  intro listed
  obtain ⟨node, member, rfl⟩ := List.mem_map.mp listed
  simp only [contains, node?, Option.isSome_eq_false_iff, Option.isNone_iff_eq_none,
    List.find?_eq_none, decide_eq_true_eq] at absent
  exact absent node member rfl

namespace Distinct

variable {sets : DisjointSets κ}

omit [DecidableEq κ] in
theorem empty : (DisjointSets.empty : DisjointSets κ).Distinct := List.nodup_nil

theorem add (distinct : sets.Distinct) (a : κ) : (sets.add a).Distinct := by
  unfold DisjointSets.add
  split
  · exact distinct
  · rename_i absent
    have fresh := not_mem_items_of_not_contains (by simpa using absent)
    rw [Distinct, List.map_append]
    refine List.nodup_append.mpr ⟨distinct, List.nodup_singleton a, fun b listed c single => ?_⟩
    rintro rfl
    obtain rfl : b = a := List.mem_singleton.mp single
    exact fresh listed

theorem redirect (distinct : sets.Distinct) (items : List κ) (target : κ) :
    (sets.redirect items target).Distinct := by
  rwa [Distinct, items_redirect]

theorem promote (distinct : sets.Distinct) (a : κ) : (sets.promote a).Distinct := by
  rwa [Distinct, items_promote]

theorem find (distinct : sets.Distinct) (a : κ) : (sets.find a).2.Distinct :=
  (distinct.add a).redirect _ _

theorem link (distinct : sets.Distinct) (a b : κ) : (sets.link a b).Distinct := by
  unfold DisjointSets.link
  split
  · exact distinct
  · split
    · exact distinct.redirect _ _
    · split
      · exact distinct.redirect _ _
      · exact (distinct.redirect _ _).promote _

theorem union (distinct : sets.Distinct) (a b : κ) : (sets.union a b).Distinct :=
  ((distinct.find a).find b).link _ _

theorem unionAll (distinct : sets.Distinct) (items : List κ) :
    (sets.unionAll items).Distinct := by
  cases items with
  | nil => exact distinct
  | cons a others =>
    unfold DisjointSets.unionAll
    induction others generalizing sets with
    | nil => exact distinct
    | cons b others ih => exact ih (distinct.union a b)

/-- The node of an item is the one found. -/
theorem parent_eq (distinct : sets.Distinct) {node : SetNode κ} (member : node ∈ sets.nodes) :
    sets.parent node.item = node.parent := by
  have found : sets.node? node.item = some node := by
    cases found : sets.node? node.item with
    | none => simpa using List.find?_eq_none.mp found node member
    | some other =>
      have same : other.item = node.item := by simpa using List.find?_some found
      rw [List.inj_on_of_nodup_map distinct (List.mem_of_find?_eq_some found) member same]
  rw [parent, found]
  rfl

/-- An item that points to itself may as well be made to. -/
theorem redirect_self (distinct : sets.Distinct) {a : κ} (fixed : sets.parent a = a) :
    sets.redirect [a] a = sets := by
  obtain ⟨nodes⟩ := sets
  refine congrArg DisjointSets.mk
    ((List.map_congr_left fun node member => ?_).trans (List.map_id _))
  split
  · rename_i listed
    obtain rfl := List.mem_singleton.mp listed
    have same : node.item = node.parent := fixed.symm.trans (distinct.parent_eq member)
    exact congrArg (fun target => { node with parent := target }) same
  · rfl

end Distinct

/-! ### Looking an item up step by step -/

/-- How an item is looked up: what it is found under, and the sets that this leaves. An item that
points to another is found where that one is, and points there from then on. -/
inductive Finds (sets : DisjointSets κ) : κ → κ → DisjointSets κ → Prop
  | fresh {a : κ} : sets.contains a = false → Finds sets a a (sets.add a)
  | top {a : κ} : sets.contains a = true → sets.parent a = a → Finds sets a a sets
  | step {a r : κ} {shorter : DisjointSets κ} : sets.parent a ≠ a →
      Finds sets (sets.parent a) r shorter → Finds sets a r (shorter.redirect [a] r)

section Find

variable {sets : DisjointSets κ} {a : κ}

theorem contains_of_parent_ne (moves : sets.parent a ≠ a) : sets.contains a = true := by
  by_contra absent
  exact moves (parent_of_not_contains (by simpa using absent))

theorem add_of_contains (member : sets.contains a = true) : sets.add a = sets := if_pos member

theorem redirect_redirect (sets : DisjointSets κ) (items : List κ) (target : κ) :
    (sets.redirect items target).redirect [a] target = sets.redirect (a :: items) target := by
  unfold redirect
  rw [List.map_map]
  refine congrArg DisjointSets.mk (List.map_congr_left fun node _ => ?_)
  by_cases same : node.item = a
  · subst same
    by_cases listed : node.item ∈ items <;> simp [listed]
  · by_cases listed : node.item ∈ items <;> simp [same, listed]

theorem find_of_not_contains (distinct : sets.Distinct) (absent : sets.contains a = false) :
    sets.find a = (a, sets.add a) := by
  have fixed : (sets.add a).parent a = a := by rw [parent_add, parent_of_not_contains absent]
  unfold find
  simp only [Forest.root_of_parent_eq fixed, Forest.way_of_parent_eq fixed,
    (distinct.add a).redirect_self fixed]

theorem find_of_parent_eq (distinct : sets.Distinct) (member : sets.contains a = true)
    (fixed : sets.parent a = a) : sets.find a = (a, sets) := by
  unfold find
  simp only [add_of_contains member, Forest.root_of_parent_eq fixed,
    Forest.way_of_parent_eq fixed, distinct.redirect_self fixed]

theorem Forest.find_of_parent_ne (forest : sets.Forest) (moves : sets.parent a ≠ a) :
    sets.find a = ((sets.find (sets.parent a)).1,
      (sets.find (sets.parent a)).2.redirect [a] (sets.find (sets.parent a)).1) := by
  have member := contains_of_parent_ne moves
  unfold find
  simp only [add_of_contains member, add_of_contains (forest.contains_parent member),
    forest.way_of_parent_ne moves, forest.root_parent, redirect_redirect]

/-- **Every look-up comes to an end**, with what `find` gives. -/
theorem Forest.finds_find (forest : sets.Forest) (distinct : sets.Distinct) (a : κ) :
    Finds sets a (sets.find a).1 (sets.find a).2 := by
  induction a using forest.induction with
  | top a fixed =>
    cases member : sets.contains a with
    | false =>
      rw [find_of_not_contains distinct member]
      exact .fresh member
    | true =>
      rw [find_of_parent_eq distinct member fixed]
      exact .top member fixed
  | below a moves ih =>
    rw [forest.find_of_parent_ne moves]
    exact .step moves ih

/-- **Looking up step by step is what `find` does at once.** -/
theorem Forest.finds_iff (forest : sets.Forest) (distinct : sets.Distinct) {r : κ}
    {shorter : DisjointSets κ} : Finds sets a r shorter ↔ sets.find a = (r, shorter) := by
  constructor
  · intro finds
    induction finds with
    | fresh absent => exact find_of_not_contains distinct absent
    | top member fixed => exact find_of_parent_eq distinct member fixed
    | step moves _ ih => rw [forest.find_of_parent_ne moves, ih]
  · intro found
    have finds := forest.finds_find distinct a
    rwa [found] at finds

/-- The parents lead to what an item is found under. -/
theorem Forest.exists_iterate_eq (forest : sets.Forest) (a : κ) :
    ∃ n, sets.parent^[n] a = sets.root a := by
  induction a using forest.induction with
  | top a fixed => exact ⟨0, (root_of_parent_eq fixed).symm⟩
  | below a _ ih =>
    obtain ⟨n, leads⟩ := ih
    exact ⟨n + 1, by rw [Function.iterate_succ_apply, leads, forest.root_parent]⟩

end Find

/-! ### Sequences of calls -/

/-- One thing asked of disjoint sets. -/
inductive Call (κ : Type)
  | add (a : κ)
  | find (a : κ)
  | union (a b : κ)
  | unionAll (items : List κ)

/-- The sets that a call leaves. -/
def after (sets : DisjointSets κ) : Call κ → DisjointSets κ
  | .add a => sets.add a
  | .find a => (sets.find a).2
  | .union a b => sets.union a b
  | .unionAll items => sets.unionAll items

/-- The sets that several calls leave, from no sets on. -/
def run (calls : List (Call κ)) : DisjointSets κ := calls.foldl after empty

/-- The pairs that a call joins. -/
def Call.Unites : Call κ → κ → κ → Prop
  | .add _, _, _ | .find _, _, _ => False
  | .union a b, x, y => x = a ∧ y = b
  | .unionAll items, x, y => x ∈ items ∧ y ∈ items

/-- The pairs that some calls join. -/
def United (calls : List (Call κ)) (x y : κ) : Prop := ∃ call ∈ calls, call.Unites x y

section Run

variable {sets : DisjointSets κ} {R : κ → κ → Prop}

/-- Steps between the same pairs. -/
theorem Represents.of_iff {S : κ → κ → Prop} (represents : sets.Represents R)
    (same : ∀ x y, R x y ↔ S x y) : sets.Represents S :=
  represents.congr (fun x y step => .rel _ _ ((same x y).mp step))
    fun x y step => .rel _ _ ((same x y).mpr step)

theorem Represents.find (represents : sets.Represents R) (a : κ) :
    (sets.find a).2.Represents R where
  forest := represents.forest.find_snd a
  root_eq_iff x y := by
    rw [represents.forest.root_find, represents.forest.root_find, represents.root_eq_iff]

/-- **One call** adds the pairs that it joins. -/
theorem Represents.after (represents : sets.Represents R) (call : Call κ) :
    (sets.after call).Represents fun x y => R x y ∨ call.Unites x y := by
  cases call with
  | add a => exact (represents.add a).of_iff fun _ _ => (or_iff_left id).symm
  | find a => exact (represents.find a).of_iff fun _ _ => (or_iff_left id).symm
  | union a b => exact represents.union a b
  | unionAll items => exact represents.unionAll items

/-- **Several calls** add the pairs that they join. -/
theorem Represents.run (represents : sets.Represents R) (calls : List (Call κ)) :
    (calls.foldl DisjointSets.after sets).Represents fun x y => R x y ∨ United calls x y := by
  induction calls generalizing sets R with
  | nil => exact represents.of_iff fun x y => by simp [United]
  | cons call calls ih =>
    exact (ih (represents.after call)).of_iff fun x y => by
      simp only [United, List.mem_cons, exists_eq_or_imp, or_assoc]

theorem Distinct.after (distinct : sets.Distinct) (call : Call κ) :
    (sets.after call).Distinct := by
  cases call with
  | add a => exact distinct.add a
  | find a => exact distinct.find a
  | union a b => exact distinct.union a b
  | unionAll items => exact distinct.unionAll items

theorem Distinct.run (distinct : sets.Distinct) (calls : List (Call κ)) :
    (calls.foldl DisjointSets.after sets).Distinct := by
  induction calls generalizing sets with
  | nil => exact distinct
  | cons call calls ih => exact ih (distinct.after call)

end Run

/-- The sets group the items as some joins do, and can be looked up. -/
structure Groups (sets : DisjointSets κ) (R : κ → κ → Prop) : Prop where
  /-- looking up an item ends, whatever the item -/
  ends : ∀ a, Finds sets a (sets.find a).1 (sets.find a).2
  /-- and in one way only -/
  only : ∀ a r shorter, Finds sets a r shorter → sets.find a = (r, shorter)
  /-- two items looked up one after the other are found in one set if joins connect them -/
  found_eq_iff : ∀ a b, (sets.find a).1 = ((sets.find a).2.find b).1 ↔ Relation.EqvGen R a b
  /-- to add an item changes nothing that is found -/
  add : ∀ a b, ((sets.add a).find b).1 = (sets.find b).1
  /-- nor does it change anything to look an item up -/
  find : ∀ a b, ((sets.find a).2.find b).1 = (sets.find b).1
  /-- parents are items, and have the higher rank -/
  forest : sets.Forest
  /-- the parents lead from an item to what it is found under, which is its own parent -/
  rooted : ∀ a, (∃ n, sets.parent^[n] a = (sets.find a).1) ∧
    sets.parent (sets.find a).1 = (sets.find a).1

theorem Represents.groups {sets : DisjointSets κ} {R : κ → κ → Prop}
    (represents : sets.Represents R) (distinct : sets.Distinct) : sets.Groups R := by
  have forest := represents.forest
  refine ⟨forest.finds_find distinct, fun a r shorter => (forest.finds_iff distinct).mp, ?_, ?_, ?_,
    forest, ?_⟩
  · intro a b
    rw [forest.find_fst, (forest.find_snd a).find_fst, forest.root_find]
    exact represents.root_eq_iff a b
  · intro a b
    rw [(forest.add a).find_fst, forest.root_add, forest.find_fst]
  · intro a b
    rw [(forest.find_snd a).find_fst, forest.root_find, forest.find_fst]
  · intro a
    rw [forest.find_fst]
    exact ⟨forest.exists_iterate_eq a, forest.parent_root a⟩

/-- **What any sequence of calls leaves**: sets that group the items as the joins among the calls
do, a forest in which every look-up ends. -/
theorem groups_run (calls : List (Call κ)) : (run calls).Groups (United calls) := by
  have represents : (run calls).Represents (United calls) :=
    (Represents.empty.run calls).of_iff fun _ _ => by rw [false_or]
  exact represents.groups (Distinct.empty.run calls)

-- an item two steps below the top points there once it was looked up
example : let sets := run [.union 0 1, .union 2 3, .union 1 3]
    sets.parent 3 = 2 ∧ (sets.find 3).1 = 0 ∧ (sets.find 3).2.parent 3 = 0 := by cbv

end PlaneSketch.DisjointSets
