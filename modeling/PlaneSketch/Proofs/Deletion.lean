import Mathlib
import PlaneSketch.Proofs.Appending
import PlaneSketch.Proofs.Closure
import PlaneSketch.Scalar.Real
import PlaneSketch.Sketch.Edit

/-!
What is deleted along with a feature.

Deleting a feature works through a list of features to remove; each one removed puts those that
refer to it on the list, and is itself gone by the time they are looked at. Features may refer to
one another in any way: to the same feature, in circles, to themselves, to nothing.

* `Sketch.removeFeature_eq`: one step takes away one feature, what constrains it, and its mentions.
* `Sketch.builtOn_cases`: what is built on a feature is, after the step, built on one of those that
  referred to the feature removed.
* `Sketch.deleteAll_eq`: the run takes away what is built on the features it was started with, no
  more and no less.
* `Sketch.loses_deleteFeature`: what a deletion leaves of a drawing.
-/

namespace PlaneSketch

open scoped Classical

/-! ### Taking away items -/

namespace Arena

variable {τ : Type} {arena : Arena τ}

/-- The arena without the items of some handles: their places are empty, a generation later. -/
noncomputable def without (arena : Arena τ) (gone : Handle → Prop) : Arena τ :=
  ⟨arena.slots.mapIdx fun place slot =>
    if slot.item.isSome ∧ gone ⟨place, slot.generation⟩ then ⟨none, slot.generation + 1⟩ else slot⟩

theorem itemsFrom_without (start : Nat) (slots : List (Slot τ)) (gone : Handle → Prop) :
    itemsFrom start (slots.mapIdx fun place slot =>
        if slot.item.isSome ∧ gone ⟨(start + place : Nat), slot.generation⟩ then
          ⟨none, slot.generation + 1⟩
        else slot) =
      (itemsFrom start slots).filter fun item => ¬gone item.1 := by
  induction slots generalizing start with
  | nil => rfl
  | cons slot rest ih =>
    have step := ih (start + 1)
    simp only [show ∀ place, start + 1 + place = start + (place + 1) by omega] at step
    rw [List.mapIdx_cons, Nat.add_zero]
    simp only [itemsFrom]
    cases held : slot.item with
    | none => simpa [held] using step
    | some item => by_cases away : gone ⟨start, slot.generation⟩ <;> simpa [held, away] using step

/-- **The items are those that are not taken away**, in the same order. -/
theorem items_without (arena : Arena τ) (gone : Handle → Prop) :
    (arena.without gone).items = arena.items.filter fun item => ¬gone item.1 := by
  have places := itemsFrom_without 0 arena.slots gone
  simp only [Nat.zero_add] at places
  exact places

/-- A handle that is not taken away names what it named. -/
theorem get?_without (arena : Arena τ) (gone : Handle → Prop) (k : Handle) :
    (arena.without gone).get? k = if gone k then none else arena.get? k := by
  ext item
  rw [← mem_items_iff, items_without, List.mem_filter, mem_items_iff]
  split <;> simp_all

theorem isLive_without_iff {gone : Handle → Prop} {k : Handle} :
    (arena.without gone).isLive k = true ↔ arena.isLive k = true ∧ ¬gone k := by
  unfold isLive
  rw [get?_without]
  split <;> simp_all

/-- It does not matter what becomes of handles that name nothing. -/
theorem without_congr {gone gone' : Handle → Prop}
    (same : ∀ k item, arena.get? k = some item → (gone k ↔ gone' k)) :
    arena.without gone = arena.without gone' := by
  refine congrArg Arena.mk (List.ext_getElem? fun place => ?_)
  simp only [List.getElem?_mapIdx]
  cases found : arena.slots[place]? with
  | none => rfl
  | some slot =>
    rw [Option.map_some, Option.map_some]
    cases held : slot.item with
    | none => simp
    | some item =>
      have named : arena.get? ⟨place, slot.generation⟩ = some item :=
        mem_items_iff.mp (mem_itemsFrom.mpr ⟨place, slot, found, held, by simp⟩)
      simp [same _ item named]

theorem without_none (arena : Arena τ) : (arena.without fun _ => False) = arena := by
  simp only [without, and_false, if_false]
  exact congrArg mk (List.ext_getElem? fun place => by simp [List.getElem?_mapIdx])

/-- Taking away some items and then others is taking away all of them at once. -/
theorem without_without (arena : Arena τ) (gone gone' : Handle → Prop) :
    (arena.without gone).without gone' = arena.without fun k => gone k ∨ gone' k := by
  simp only [without, List.mapIdx_mapIdx, mk.injEq]
  refine congrArg (List.mapIdx · arena.slots) ?_
  funext place slot
  by_cases held : slot.item.isSome = true
  · by_cases away : gone ⟨place, slot.generation⟩ <;> simp [held, away]
  · simp [held]

theorem remove_eq (arena : Arena τ) (h : Handle) : arena.remove h = arena.without (· = h) := by
  unfold remove
  split
  · rename_i live
    obtain ⟨item, named⟩ := Option.isSome_iff_exists.mp live
    obtain ⟨place, slot, found, held, rfl⟩ := mem_itemsFrom.mp (mem_items_iff.mpr named)
    refine congrArg mk (List.ext_getElem? fun other => ?_)
    rw [List.getElem?_modify, List.getElem?_mapIdx, Nat.zero_add, Int.toNat_natCast]
    by_cases same : place = other
    · subst same
      simp [found, held]
    · simp [same, Ne.symm same]
  · rename_i dead
    have other : ∀ k item, arena.get? k = some item → (k = h ↔ False) := by
      rintro k item named
      rw [iff_false]
      rintro rfl
      exact dead (by simp [isLive, named])
    rw [without_congr other, without_none]

theorem foldl_remove (arena : Arena τ) (handles : List Handle) :
    handles.foldl remove arena = arena.without (· ∈ handles) := by
  induction handles generalizing arena with
  | nil => simp [without_none]
  | cons h handles ih => simp only [List.foldl_cons, ih, remove_eq, without_without, List.mem_cons]

end Arena

/-! ### Taking away features -/

namespace Sketch

variable {α : Type} {sketch : Sketch α}

/-- The drawing without some features, without the constraints that refer to one of them, and
without their mentions in groups. -/
noncomputable def without (sketch : Sketch α) (gone : Handle → Prop) : Sketch α where
  features := sketch.features.without gone
  constraints := sketch.constraints.without fun k =>
    ∃ constraint, sketch.constraints.get? k = some constraint ∧ ∃ h ∈ constraint.references, gone h
  groups := sketch.groups.map fun group =>
    { group with members := group.members.filter fun member => ¬gone member }

theorem without_none (sketch : Sketch α) : (sketch.without fun _ => False) = sketch := by
  simp [without, Arena.without_none]

theorem without_without (sketch : Sketch α) (gone gone' : Handle → Prop) :
    (sketch.without gone).without gone' = sketch.without fun k => gone k ∨ gone' k := by
  simp only [without, Arena.without_without, List.map_map, mk.injEq, true_and]
  constructor
  · refine Arena.without_congr fun k constraint named => ?_
    simp only [Arena.get?_without, named, Option.some.injEq, exists_eq_left']
    by_cases refers : ∃ h ∈ constraint.references, gone h
    · simp only [refers, true_or, true_iff]
      obtain ⟨h, listed, away⟩ := refers
      exact ⟨h, listed, .inl away⟩
    · simp only [refers, if_false, Option.some.injEq, exists_eq_left', false_or]
      refine exists_congr fun h => and_congr_right fun listed => ?_
      simp [show ¬gone h from fun away => refers ⟨h, listed, away⟩]
  · refine List.map_congr_left fun group _ => ?_
    simp [List.filter_filter, Bool.and_comm]

/-- **One step** takes away the feature, the constraints that refer to it, and its mentions. -/
theorem removeFeature_eq (sketch : Sketch α) (h : Handle) :
    sketch.removeFeature h = sketch.without (· = h) := by
  simp only [removeFeature, without, Arena.remove_eq, Arena.foldl_remove, mk.injEq, true_and]
  refine ⟨Arena.without_congr fun k constraint named => ?_,
    List.map_congr_left fun group _ => congrArg (fun members => { group with members }) ?_⟩
  · simp only [constraintsOn, List.mem_map, List.mem_filter, Prod.exists, exists_and_right,
    exists_eq_right, Arena.mem_items_iff, named, Option.some.injEq, exists_eq_left',
    List.contains_iff_mem]
  · exact List.filter_congr fun member _ => decide_eq_decide.mpr Iff.rfl

/-! ### What is built on a feature -/

/-- A path that leads on where another one ends. -/
theorem Reaches.trans {h k r : Handle} (path : sketch.Reaches [] h k)
    (further : sketch.Reaches [] k r) : sketch.Reaches [] h r := by
  induction path with
  | refl => exact further
  | step fresh found listed _ ih => exact .step fresh found listed (ih further)

/-- A feature is built on another one, or is that one itself: a path along references leads from it
to the other, a live one. -/
def BuiltOn (sketch : Sketch α) (h k : Handle) : Prop :=
  sketch.isLive h = true ∧ sketch.Reaches [] k h

theorem BuiltOn.isLive {h k : Handle} (built : sketch.BuiltOn h k) : sketch.isLive k = true :=
  built.2.isLive built.1

theorem feature?_without (sketch : Sketch α) (gone : Handle → Prop) (k : Handle) :
    (sketch.without gone).feature? k = if gone k then none else sketch.feature? k :=
  sketch.features.get?_without gone k

theorem isLive_without_iff {gone : Handle → Prop} {k : Handle} :
    (sketch.without gone).isLive k = true ↔ sketch.isLive k = true ∧ ¬gone k :=
  Arena.isLive_without_iff

/-- A path that is left was there before. -/
theorem Reaches.of_without {gone : Handle → Prop} {seen : List Handle} {k h : Handle}
    (path : (sketch.without gone).Reaches seen k h) : sketch.Reaches seen k h := by
  induction path with
  | refl fresh => exact .refl fresh
  | step fresh found listed _ ih =>
    rw [feature?_without] at found
    split at found
    · cases found
    · exact .step fresh found listed ih

theorem mem_dependents_iff {h k : Handle} :
    k ∈ sketch.dependents h ↔ ∃ feature, sketch.feature? k = some feature ∧
      h ∈ feature.references := by
  simp [dependents, feature?, Arena.mem_items_iff]

/-- **What a step leaves to do.** When a feature is removed, what is built on another one is the
feature removed, is still built on the other one, or is built on a feature that referred to the one
removed. -/
theorem builtOn_cases {h w k : Handle} (built : sketch.BuiltOn w k) :
    k = h ∨ ∃ d ∈ w :: sketch.dependents h, (sketch.without (· = h)).BuiltOn d k := by
  obtain ⟨live, path⟩ := built
  induction path with
  | @refl w _ =>
    by_cases same : w = h
    · exact .inl same
    · exact .inr ⟨w, List.mem_cons_self, isLive_without_iff.mpr ⟨live, same⟩, .refl (by simp)⟩
  | @step k r w feature _ found listed _ ih =>
    by_cases same : k = h
    · exact .inl same
    · refine .inr ?_
      have found' : (sketch.without (· = h)).feature? k = some feature := by
        rw [feature?_without, if_neg same, found]
      rcases ih live with rfl | ⟨d, waiting, live', path⟩
      · refine ⟨k, List.mem_cons_of_mem w (mem_dependents_iff.mpr ⟨feature, found, listed⟩), ?_,
          .refl (by simp)⟩
        simp [Sketch.isLive, Arena.isLive, ← feature?.eq_1, found']
      · exact ⟨d, waiting, live', .step (by simp) found' listed path⟩

theorem BuiltOn.of_without {gone : Handle → Prop} {h k : Handle}
    (built : (sketch.without gone).BuiltOn h k) : sketch.BuiltOn h k :=
  ⟨(isLive_without_iff.mp built.1).1, built.2.of_without⟩

/-- What is built on what referred to a feature is built on that feature. -/
theorem BuiltOn.of_dependents {h d k : Handle} (live : sketch.isLive h = true)
    (refers : d ∈ sketch.dependents h) (built : (sketch.without (· = h)).BuiltOn d k) :
    sketch.BuiltOn h k := by
  obtain ⟨feature, found, listed⟩ := mem_dependents_iff.mp refers
  exact ⟨live, built.2.of_without.trans (.step (by simp) found listed (.refl (by simp)))⟩

/-- **The run** takes away what is built on the features it is started with. The induction is that
of the work list: behind a step, the features that referred to the one removed stand in for it. -/
theorem deleteAll_eq (sketch : Sketch α) (waiting : List Handle) :
    sketch.deleteAll waiting = sketch.without fun k => ∃ h ∈ waiting, sketch.BuiltOn h k := by
  fun_induction deleteAll sketch waiting with
  | case1 sketch => simp [without_none]
  | case2 sketch h waiting live ih =>
    rw [ih, removeFeature_eq, without_without]
    congr 1
    funext k
    refine propext ⟨?_, ?_⟩
    · rintro (rfl | ⟨d, listed, built⟩)
      · exact ⟨k, List.mem_cons_self, live, .refl (by simp)⟩
      · rcases List.mem_append.mp listed with refers | later
        · exact ⟨h, List.mem_cons_self, built.of_dependents live refers⟩
        · exact ⟨d, List.mem_cons_of_mem h later, built.of_without⟩
    · rintro ⟨w, listed, built⟩
      rcases builtOn_cases (h := h) built with same | ⟨d, among, built'⟩
      · exact .inl same
      · refine .inr ⟨d, List.mem_append.mpr ?_, built'⟩
        rcases List.mem_cons.mp among with rfl | refers
        · refine .inr ((List.mem_cons.mp listed).resolve_left ?_)
          -- nothing is built on the feature removed any more
          rintro rfl
          exact (isLive_without_iff.mp built'.1).2 rfl
        · exact .inl refers
  | case3 sketch h waiting dead ih =>
    rw [ih]
    congr 1
    funext k
    simp [BuiltOn, dead]

/-- A deletion takes away what is built on the feature. -/
theorem deleteFeature_eq (sketch : Sketch α) (h : Handle) :
    (sketch.deleteFeature h).1 = sketch.without (sketch.BuiltOn h) := by
  simp [deleteFeature, deleteAll_eq]

/-! ### What a deletion leaves -/

/-- What is left of a drawing without some features. All places are those of `Sketch.without`; so
what is left keeps its handle, its content and its place in the order, and a handle of what is gone
names nothing ever after. -/
structure Loses (sketch after : Sketch α) (gone : Handle → Prop) : Prop where
  places : after = sketch.without gone
  features : after.features.items = sketch.features.items.filter fun item => ¬gone item.1
  constraints : after.constraints.items =
    sketch.constraints.items.filter fun item => ¬∃ r ∈ item.2.references, gone r
  groups : after.groups = sketch.groups.map fun group =>
    { group with members := group.members.filter fun member => ¬gone member }

theorem items_constraints_without (sketch : Sketch α) (gone : Handle → Prop) :
    (sketch.without gone).constraints.items =
      sketch.constraints.items.filter fun item => ¬∃ r ∈ item.2.references, gone r := by
  rw [without, Arena.items_without]
  refine List.filter_congr fun item listed => ?_
  have named := Arena.mem_items_iff.mp listed
  simp [named]

theorem loses_without (sketch : Sketch α) (gone : Handle → Prop) :
    sketch.Loses (sketch.without gone) gone where
  places := rfl
  features := sketch.features.items_without gone
  constraints := sketch.items_constraints_without gone
  groups := rfl

/-- **A feature that is left refers to none that is gone**: it would be built on that one. -/
theorem not_builtOn_of_refers {h k r : Handle} {feature : Feature α}
    (found : sketch.feature? k = some feature) (refers : r ∈ feature.references)
    (left : ¬sketch.BuiltOn h k) : ¬sketch.BuiltOn h r :=
  fun built => left ⟨built.1, .step (by simp) found refers built.2⟩

/-- Where all references name features, so do those that are left. -/
theorem Closed.without_builtOn (closed : sketch.Closed) (h : Handle) :
    (sketch.without (sketch.BuiltOn h)).Closed where
  features item listed r refers := by
    rw [(sketch.loses_without _).features, List.mem_filter] at listed
    have left : ¬sketch.BuiltOn h item.1 := by simpa using listed.2
    exact isLive_without_iff.mpr ⟨closed.features item listed.1 r refers,
      not_builtOn_of_refers (Arena.mem_items_iff.mp listed.1) refers left⟩
  constraints item listed r refers := by
    rw [(sketch.loses_without _).constraints, List.mem_filter] at listed
    have left : ¬∃ r ∈ item.2.references, sketch.BuiltOn h r := by simpa using listed.2
    exact isLive_without_iff.mpr ⟨closed.constraints item listed.1 r refers,
      fun built => left ⟨r, refers, built⟩⟩

/-- Every mention in a group names a feature. -/
def Grouped (sketch : Sketch α) : Prop :=
  ∀ group ∈ sketch.groups, ∀ member ∈ group.members, sketch.isLive member = true

theorem Grouped.without {gone : Handle → Prop} (grouped : sketch.Grouped) :
    (sketch.without gone).Grouped := by
  intro group listed member mentioned
  obtain ⟨group, known, rfl⟩ := List.mem_map.mp listed
  obtain ⟨mentioned, left⟩ := List.mem_filter.mp mentioned
  exact isLive_without_iff.mpr ⟨grouped group known member mentioned, by simpa using left⟩

/-- **A deletion removes exactly what is built on the feature.** On every drawing, whatever refers
to what, it ends and says whether there was such a feature; what it takes away is the features from
which a path along references leads to that one, the constraints that refer to one of them, and
their mentions in groups. So no reference and no mention is left without its feature. -/
theorem loses_deleteFeature (sketch : Sketch α) (h : Handle) :
    (sketch.deleteFeature h).2 = sketch.isLive h ∧
      sketch.Loses (sketch.deleteFeature h).1 (sketch.BuiltOn h) ∧
      (sketch.Closed → (sketch.deleteFeature h).1.Closed) ∧
      (sketch.Grouped → (sketch.deleteFeature h).1.Grouped) := by
  have run : (sketch.deleteFeature h).1 = sketch.without (sketch.BuiltOn h) := by
    simp [deleteFeature, deleteAll_eq]
  rw [run]
  exact ⟨rfl, sketch.loses_without _, fun closed => closed.without_builtOn h,
    fun grouped => grouped.without⟩

/-- Two lines that refer to each other and share a point, and a point by itself. -/
noncomputable def looped : Sketch ℝ where
  features := ⟨[⟨some (.point 0 0 false), 0⟩, ⟨some (.line ⟨0, 0⟩ ⟨2, 0⟩ false), 0⟩,
    ⟨some (.line ⟨1, 0⟩ ⟨0, 0⟩ false), 0⟩, ⟨some (.point 1 0 false), 0⟩]⟩
  constraints := ⟨[⟨some (.plain .coincident [⟨0, 0⟩, ⟨3, 0⟩] none none), 0⟩]⟩
  groups := [⟨.boundary, "outline", [⟨2, 0⟩, ⟨3, 0⟩], none, none⟩]

/-- Both lines are built on each other and on the point; the other point is left. -/
theorem loses_deleteFeature_looped : looped.Closed ∧ looped.Grouped ∧
    (looped.deleteFeature ⟨0, 0⟩).1.Closed ∧ (looped.deleteFeature ⟨0, 0⟩).1.Grouped ∧
    (looped.deleteFeature ⟨0, 0⟩).1.features.handles = [⟨3, 0⟩] := by
  have closed : looped.Closed := ⟨by decide, by decide⟩
  have grouped : looped.Grouped := by
    unfold Grouped
    decide
  obtain ⟨-, -, closes, groups⟩ := loses_deleteFeature looped ⟨0, 0⟩
  exact ⟨closed, grouped, closes closed, groups grouped, by cbv⟩

end Sketch

end PlaneSketch
