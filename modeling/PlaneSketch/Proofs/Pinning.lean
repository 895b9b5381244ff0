import Mathlib
import PlaneSketch.Proofs.Acceptance
import PlaneSketch.Proofs.History

/-!
Which constraint binds a point.

Compiling goes through the constraints once and binds points on the way, so that what comes before
and what comes behind a binding see different pools. In the end only the order of the constraints
that fix something counts.

* `Sketch.binder?`: the constraint that binds a point, told by the drawing alone.
* `Sketch.pins_of_compiled`: what compiling makes of the pool, and the blocks in order.
* `Owner.eq_of_key_eq`, `Sketch.nodup_keys`: names tell blocks apart.
* `Sketch.SameFixes`: other constraints can stand anywhere.
* `first_fix_wins`: all of it, and where a bound point is reported.
-/

namespace PlaneSketch

/-! ### The names of blocks -/

/-- What stands before a sign is found again. -/
theorem takeWhile_of_clean {sign : Char} {before rest : List Char} (clean : sign ∉ before)
    (stops : ∀ c ∈ rest.head?, c = sign) :
    (before ++ rest).takeWhile (· ≠ sign) = before := by
  rw [List.takeWhile_append_of_pos]
  · cases rest with
    | nil => simp
    | cons c rest => simp [stops c rfl]
  · intro c listed
    simp only [decide_eq_true_eq]
    rintro rfl
    exact clean listed

namespace Handle

/-- The text of an index holds digits and a sign only. -/
theorem not_mem_toString {index : Int} {c : Char} (other : c.isDigit = false) (sign : c ≠ '-') :
    c ∉ (toString index).toList := by
  have digits : ∀ n : Nat, c ∉ n.repr.toList := by
    intro n listed
    rw [Nat.toList_repr] at listed
    rw [Nat.isDigit_of_mem_toDigits (by omega) (by omega) listed] at other
    cases other
  rw [Int.toString_eq_repr, Int.repr_eq_if]
  split
  · exact digits _
  · rw [String.toList_append, List.mem_append, not_or]
    exact ⟨by simpa using sign, digits _⟩

/-- The text of a handle: a number sign and the index, and more behind an at sign, if any. -/
theorem exists_text (h : Handle) : ∃ rest, (∀ c ∈ rest.head?, c = '@') ∧
    h.text.toList = '#' :: ((toString h.index).toList ++ rest) := by
  have hash : (toString "#").toList = ['#'] := rfl
  have at' : (toString "@").toList = ['@'] := rfl
  unfold text
  split
  · exact ⟨[], by simp, by simp [hash]⟩
  · exact ⟨'@' :: (toString h.generation).toList, by simp, by simp [hash, at']⟩

end Handle

namespace Owner

/-- The name of the block of an owner. -/
def key (owner : Owner) : String := owner.kindName ++ owner.handle.text

theorem clean_kindName (owner : Owner) : '#' ∉ owner.kindName.toList := by
  cases owner with
  | constraint h kind => cases kind <;> simp [kindName, ConstraintKind.name]
  | arc h => simp [kindName]

/-- **The name tells the kind and the index of the owner.** -/
theorem eq_of_key_eq {owner other : Owner} (same : owner.key = other.key) :
    owner.kindName = other.kindName ∧ owner.handle.index = other.handle.index := by
  obtain ⟨rest, stops, text⟩ := owner.handle.exists_text
  obtain ⟨rest', stops', text'⟩ := other.handle.exists_text
  have letters := congrArg String.toList same
  rw [key, key, String.toList_append, String.toList_append, text, text'] at letters
  have names := congrArg (List.takeWhile (· ≠ '#')) letters
  rw [takeWhile_of_clean owner.clean_kindName (by simp),
    takeWhile_of_clean other.clean_kindName (by simp)] at names
  rw [names, List.append_cancel_left_eq, List.cons.injEq] at letters
  have indices := congrArg (List.takeWhile (· ≠ '@')) letters.2
  rw [takeWhile_of_clean (Handle.not_mem_toString (by decide) (by decide)) stops,
    takeWhile_of_clean (Handle.not_mem_toString (by decide) (by decide)) stops'] at indices
  refine ⟨String.toList_inj.mp names, ?_⟩
  exact Int.repr_inj.mp (String.toList_inj.mp indices)

end Owner

variable {α : Type} [Scalar α]

namespace Sketch

open scoped Classical

variable {sketch other : Sketch α} {start pool pool' : Pool α} {blocks : List (Block α)}
  {items : List (Handle × Constraint α)} {p h : Handle} {constraint : Constraint α}

/-! ### The constraint that binds a point -/

/-- The constraints without a flaw, in order. -/
def unflawed (sketch : Sketch α) : List (Handle × Constraint α) :=
  sketch.kept (Plan.flawedConstraints sketch.flaws)

/-- Those among them that fix something. -/
def fixes (sketch : Sketch α) : List (Handle × Constraint α) :=
  sketch.unflawed.filter fun item => item.2.kind = .fixed

/-- The constraint that binds a point: the first of those that refers to it. -/
def binder? (sketch : Sketch α) (p : Handle) : Option (Handle × Constraint α) :=
  sketch.fixes.find? fun item => p ∈ item.2.references

theorem mem_unflawed_iff : (h, constraint) ∈ sketch.unflawed ↔
    sketch.constraints.get? h = some constraint ∧
      sketch.constraintFault? (sketch.brokenFeatures sketch.flaws) constraint = none := by
  rw [unflawed, mem_kept_iff]
  refine and_congr_right fun found => ?_
  rw [Plan.flawedConstraints, mem_flawed_iff found, not_not]

/-- A constraint without a flaw that fixes something refers to one point. -/
theorem exists_reference (listed : (h, constraint) ∈ sketch.unflawed)
    (kind : constraint.kind = .fixed) : ∃ r, constraint.references = [r] ∧ sketch.Point r := by
  obtain ⟨kinds, fit⟩ := fit_of_constraintFault?_eq_none (mem_unflawed_iff.mp listed).2
  exact fit.reference_of_fixed kind

theorem firstFix?_unflawed (p : Handle) : firstFix? sketch.unflawed p = sketch.binder? p := by
  rw [binder?, fixes, List.find?_filter]
  refine List.find?_congr fun item listed => ?_
  rw [decide_eq_decide, decide_eq_true_eq, decide_eq_true_eq]
  refine and_congr_right fun kind => ?_
  obtain ⟨r, references, -⟩ := exists_reference listed kind
  simp [references, eq_comm]

theorem fixes_of_binder? (found : sketch.binder? p = some (h, constraint)) :
    (h, constraint) ∈ sketch.unflawed ∧ constraint.kind = .fixed ∧
      constraint.references = [p] ∧ sketch.Point p := by
  obtain ⟨listed, kind⟩ := List.mem_filter.mp (List.mem_of_find?_eq_some found)
  have kind : constraint.kind = .fixed := by simpa using kind
  have refers : p ∈ constraint.references := by simpa using List.find?_some found
  obtain ⟨r, references, point⟩ := exists_reference listed kind
  obtain rfl : p = r := by simpa [references] using refers
  exact ⟨listed, kind, references, point⟩

/-! ### Blocks in order -/

/-- A constraint binds a point when it is the first to fix it and nothing did before. -/
def BindsIn (pool : Pool α) (items : List (Handle × Constraint α))
    (item : Handle × Constraint α) : Prop :=
  ∃ p, pool.isPinned p = false ∧ firstFix? items p = some item

omit [Scalar α] in
/-- The constraint in front binds what it fixes. -/
theorem bindsIn_cons_self {item : Handle × Constraint α} :
    BindsIn pool (item :: items) item ↔ ∃ p, pool.isPinned p = false ∧ item.2.Fixes p := by
  refine exists_congr fun p => and_congr_right fun _ => ?_
  constructor
  · intro found
    simpa using List.find?_some found
  · intro fixes
    simp [firstFix?, fixes]

/-- A later constraint binds what it would bind without the one in front, which is done. -/
theorem Compiled.bindsIn_cons {between : Pool α} {own : List (Block α)}
    {item item' : Handle × Constraint α}
    (step : sketch.Compiled pool item.1 item.2 between own) (ne : item ≠ item') :
    BindsIn pool (item :: items) item' ↔ BindsIn between items item' := by
  refine exists_congr fun p => ?_
  rw [step.isPinned_eq_false_iff]
  by_cases fixes : item.2.Fixes p
  · simp [firstFix?, fixes, ne]
  · simp [firstFix?, fixes]

/-- **Each constraint that binds nothing has one block**, in the order of the constraints. -/
theorem owners_compileConstraints
    (done : sketch.compileConstraints pool items = .ok (pool', blocks))
    (distinct : (items.map (·.1)).Nodup) :
    blocks.map (·.owner) = (items.filter fun item => ¬BindsIn pool items item).map fun item =>
      .constraint item.1 item.2.kind := by
  induction items generalizing pool blocks with
  | nil =>
    cases done
    rfl
  | cons item items ih =>
    obtain ⟨between, own, others, first, rest, rfl⟩ := compileConstraints_cons_eq_ok_iff.mp done
    rw [List.map_cons, List.nodup_cons] at distinct
    have later : (items.filter fun item' => decide ¬BindsIn pool (item :: items) item') =
        items.filter fun item' => decide ¬BindsIn between items item' := by
      refine List.filter_congr fun item' listed => decide_eq_decide.mpr (not_congr ?_)
      exact first.bindsIn_cons fun same => distinct.1 (same ▸ List.mem_map_of_mem listed)
    rw [List.map_append, ih rest distinct.2, List.filter_cons, later]
    cases first with
    | bound fixes unpinned =>
      rw [if_neg]
      · rfl
      · simpa [bindsIn_cons_self] using ⟨_, unpinned, fixes⟩
    | block pinned =>
      rw [if_pos]
      · rfl
      · rw [decide_eq_true_eq, bindsIn_cons_self]
        rintro ⟨p, unpinned, fixes⟩
        rw [pinned p fixes] at unpinned
        cases unpinned

omit [Scalar α] in
/-- The blocks of arcs come in the order of the arcs. -/
theorem owners_arcBlocks {skip : List Handle} {arcs : List (Block α)}
    (done : sketch.arcBlocks skip = .ok arcs) :
    arcs.map (·.owner) = (sketch.features.items.filter fun item =>
      item.2.kind = .arc ∧ item.1 ∉ skip).map fun item => .arc item.1 := by
  have kept : (sketch.features.items.filter fun item =>
      item.2.kind = .arc && !skip.contains item.1) = sketch.features.items.filter fun item =>
        item.2.kind = .arc ∧ item.1 ∉ skip := by
    refine List.filter_congr fun item _ => ?_
    simp
  rw [← kept]
  symm
  refine map_eq_of_forall₂ ((mapM_eq_ok_iff.mp done).imp ?_)
  intro item block compiled
  obtain ⟨relation, -, same⟩ := bind_eq_ok_iff.mp compiled
  cases same
  rfl

/-- The constraint binds a point. -/
def Binds (sketch : Sketch α) (item : Handle × Constraint α) : Prop :=
  ∃ p, sketch.binder? p = some item

/-- What owns a block, in order: the arcs that are not broken, and then the constraints without a
flaw that bind nothing. -/
noncomputable def blockOwners (sketch : Sketch α) : List Owner :=
  ((sketch.features.items.filter fun item =>
      item.2.kind = .arc ∧ item.1 ∉ sketch.brokenFeatures sketch.flaws).map fun item =>
        .arc item.1) ++
    (sketch.unflawed.filter fun item => ¬sketch.Binds item).map fun item =>
      .constraint item.1 item.2.kind

theorem mem_blockOwners_iff {owner : Owner} : owner ∈ sketch.blockOwners ↔
    (∃ h feature, sketch.feature? h = some feature ∧ feature.kind = .arc ∧
      h ∉ sketch.brokenFeatures sketch.flaws ∧ owner = .arc h) ∨
    ∃ h constraint, (h, constraint) ∈ sketch.unflawed ∧ ¬sketch.Binds (h, constraint) ∧
      owner = .constraint h constraint.kind := by
  simp only [blockOwners, List.mem_append, List.mem_map, List.mem_filter, decide_eq_true_eq,
    Prod.exists, Arena.mem_items_iff, ← feature?.eq_1, and_assoc, eq_comm (b := owner)]

theorem nodup_blockOwners (sketch : Sketch α) : sketch.blockOwners.Nodup := by
  rw [blockOwners, List.nodup_append]
  refine ⟨?_, ?_, ?_⟩
  · have distinct : ((sketch.features.items.filter fun item => item.2.kind = .arc ∧
        item.1 ∉ sketch.brokenFeatures sketch.flaws).map (·.1)).Nodup :=
      sketch.features.nodup_handles.sublist (List.filter_sublist.map _)
    have arcs := distinct.map (f := Owner.arc) fun _ _ same => Owner.arc.inj same
    rwa [List.map_map] at arcs
  · have distinct : ((sketch.unflawed.filter fun item => ¬sketch.Binds item).map (·.1)).Nodup :=
      (nodup_kept _).sublist (List.filter_sublist.map _)
    refine List.Nodup.of_map Owner.handle ?_
    rwa [List.map_map]
  · intro owner ofArc other ofConstraint
    obtain ⟨item, -, rfl⟩ := List.mem_map.mp ofArc
    obtain ⟨item', -, rfl⟩ := List.mem_map.mp ofConstraint
    simp

/-- **No two blocks have the same name.** -/
theorem nodup_keys (sketch : Sketch α) : (sketch.blockOwners.map Owner.key).Nodup := by
  refine List.Nodup.map_on ?_ sketch.nodup_blockOwners
  intro owner listed other listed' same
  obtain ⟨kinds, indices⟩ := Owner.eq_of_key_eq same
  rcases mem_blockOwners_iff.mp listed with ⟨h, feature, found, -, -, rfl⟩ |
    ⟨h, constraint, unflawed, -, rfl⟩
  · rcases mem_blockOwners_iff.mp listed' with ⟨h', feature', found', -, -, rfl⟩ |
      ⟨h', constraint', -, -, rfl⟩
    · rw [Arena.eq_of_index_eq (isLive_iff.mpr ⟨_, found⟩) (isLive_iff.mpr ⟨_, found'⟩) indices]
    · -- no kind of constraint is named like an arc
      revert kinds
      cases constraint'.kind <;> simp [Owner.kindName, ConstraintKind.name]
  · rcases mem_blockOwners_iff.mp listed' with ⟨h', feature', -, -, -, rfl⟩ |
      ⟨h', constraint', unflawed', -, rfl⟩
    · revert kinds
      cases constraint.kind <;> simp [Owner.kindName, ConstraintKind.name]
    · have found := (mem_unflawed_iff.mp unflawed).1
      have found' := (mem_unflawed_iff.mp unflawed').1
      obtain rfl : h = h' := Arena.eq_of_index_eq (Option.isSome_iff_exists.mpr ⟨_, found⟩)
        (Option.isSome_iff_exists.mpr ⟨_, found'⟩) indices
      obtain rfl := Option.some.inj (found.symm.trans found')
      rfl

/-! ### A compiled drawing -/

/-- What a drawing has compiled to, and what became of the pool. -/
structure Pins (sketch : Sketch α) (start pool : Pool α) (blocks : List (Block α)) : Prop where
  /-- a coordinate is bound when a constraint fixes its point -/
  bound : ∀ p component, component ≠ .r → ((pool.binding? ⟨p, component⟩).isSome = true ↔
    ∃ item ∈ sketch.unflawed, item.2.kind = .fixed ∧ p ∈ item.2.references)
  /-- the first such constraint binds both coordinates where it says -/
  first : ∀ p h constraint, sketch.binder? p = some (h, constraint) →
    pool.entry? ⟨p, .x⟩ = some ⟨⟨p, .x⟩, constraint.position.x, some h⟩ ∧
      pool.entry? ⟨p, .y⟩ = some ⟨⟨p, .y⟩, constraint.position.y, some h⟩
  /-- nothing else changes -/
  others : ∀ v, v.component = .r ∨ sketch.binder? v.handle = none →
    pool.entry? v = start.entry? v
  keys : pool.keys = start.keys
  owners : blocks.map (·.owner) = sketch.blockOwners
  distinct : (blocks.map Block.key).Nodup

/-- A point that is fixed at all is bound. -/
theorem binder?_ne_none_iff : sketch.binder? p ≠ none ↔
    ∃ item ∈ sketch.unflawed, item.2.kind = .fixed ∧ p ∈ item.2.references := by
  simp [binder?, fixes]

section Compiling

variable (same : Pool.SameShape (Pool.ofSketch sketch) start)
  (done : Plan.compiled sketch start sketch.flaws = .ok (pool, blocks))

include same done

theorem entry?_compiled (v : Variable) :
    pool.entry? v = (start.entry? v).map fun entry =>
      match sketch.binder? v.handle with
      | none => entry
      | some (h, constraint) => Pool.pinnedEntry entry constraint.position h := by
  have compiled := entry?_of_compile (Pool.unbound_of_sameShape same) done v
  rw [← unflawed.eq_1, firstFix?_unflawed] at compiled
  exact compiled

theorem owners_compiled : blocks.map (·.owner) = sketch.blockOwners := by
  obtain ⟨arcs, others, features, constraints, rfl⟩ := compile_eq_ok_iff.mp done
  rw [List.map_append, owners_arcBlocks features,
    owners_compileConstraints constraints (nodup_kept _), blockOwners]
  have binds : ∀ item, BindsIn start sketch.unflawed item ↔ sketch.Binds item := by
    intro item
    simp [BindsIn, Binds, Pool.isPinned, Pool.unbound_of_sameShape same, firstFix?_unflawed]
  simp only [← unflawed.eq_1, binds]

/-- Both coordinates of a point are bound by the first constraint that fixes it. -/
theorem entries_of_binder? (binds : sketch.binder? p = some (h, constraint)) :
    pool.entry? ⟨p, .x⟩ = some ⟨⟨p, .x⟩, constraint.position.x, some h⟩ ∧
      pool.entry? ⟨p, .y⟩ = some ⟨⟨p, .y⟩, constraint.position.y, some h⟩ := by
  obtain ⟨-, -, -, point⟩ := fixes_of_binder? binds
  obtain ⟨hasX, hasY⟩ := registered_point point
  obtain ⟨entryX, foundX⟩ := Pool.mem_keys_iff.mp (covers_of_sameShape same _ hasX)
  obtain ⟨entryY, foundY⟩ := Pool.mem_keys_iff.mp (covers_of_sameShape same _ hasY)
  rw [entry?_compiled same done, entry?_compiled same done, foundX, foundY]
  simp [binds, Pool.pinnedEntry, Pool.key_of_found foundX, Pool.key_of_found foundY]

/-- Radii and the coordinates of points that nothing fixes stay as they were. -/
theorem entry?_of_untouched {v : Variable}
    (untouched : v.component = .r ∨ sketch.binder? v.handle = none) :
    pool.entry? v = start.entry? v := by
  rw [entry?_compiled same done]
  cases found : start.entry? v with
  | none => rfl
  | some old =>
    rw [Option.map_some]
    rcases untouched with radius | none
    · split
      · rfl
      · simp [Pool.pinnedEntry, Pool.key_of_found found, radius]
    · rw [none]

/-- **The first constraint to fix a point binds it**, wherever it stands, and the others have their
blocks. -/
theorem pins_of_compiled : sketch.Pins start pool blocks where
  bound p component coordinate := by
    rw [← binder?_ne_none_iff]
    cases binds : sketch.binder? p with
    | none =>
      have still := Pool.unbound_of_sameShape same ⟨p, component⟩
      rw [Pool.binding?] at still ⊢
      rw [entry?_of_untouched same done (.inr binds), still]
      simp
    | some item =>
      obtain ⟨foundX, foundY⟩ := entries_of_binder? same done binds
      rw [Pool.binding?]
      cases component with
      | x => simp [foundX]
      | y => simp [foundY]
      | r => exact absurd rfl coordinate
  first p h constraint binds := entries_of_binder? same done binds
  others v untouched := entry?_of_untouched same done untouched
  keys := keys_compile done
  owners := owners_compiled same done
  distinct := by
    have names := sketch.nodup_keys
    rw [← owners_compiled same done, List.map_map] at names
    exact names

end Compiling

/-- What stays free: the radii, and the coordinates of points that nothing fixes. -/
theorem Pins.isFree_iff (pins : sketch.Pins start pool blocks)
    (unbound : ∀ v, start.binding? v = none) {v : Variable} :
    pool.isFree v = true ↔
      v ∈ start.keys ∧ (v.component = .r ∨ sketch.binder? v.handle = none) := by
  rw [Pool.isFree_iff, pins.keys]
  refine and_congr_right fun _ => ?_
  constructor
  · intro free
    by_contra touched
    rw [not_or] at touched
    have bound := (pins.bound v.handle v.component touched.1).mpr
      (binder?_ne_none_iff.mp touched.2)
    rw [free] at bound
    cases bound
  · intro untouched
    rw [Pool.binding?, pins.others v untouched, ← Pool.binding?, unbound]

/-! ### Moving constraints -/

/-- The drawings have the same features and the same constraints that fix something, one after the
other. Other constraints may stand anywhere. -/
structure SameFixes (sketch other : Sketch α) : Prop where
  features : other.features = sketch.features
  fixed : (other.constraints.items.filter fun item => item.2.kind = .fixed).map (·.2) =
    (sketch.constraints.items.filter fun item => item.2.kind = .fixed).map (·.2)

/-- The place of the constraint that binds a point among those that fix something. -/
def place? (sketch : Sketch α) (p : Handle) : Option Nat :=
  sketch.fixes.findIdx? fun item => p ∈ item.2.references

/-- The constraints that fix something, without their handles. -/
theorem map_fixes (sketch : Sketch α) : sketch.fixes.map (·.2) =
    ((sketch.constraints.items.filter fun item => item.2.kind = .fixed).map (·.2)).filter
      fun constraint =>
        sketch.constraintFault? (sketch.brokenFeatures sketch.flaws) constraint = none := by
  rw [List.filter_map, fixes, unflawed, kept, List.filter_filter, List.filter_filter]
  refine congrArg (List.map _) (List.filter_congr fun item listed => ?_)
  have found := Arena.mem_items_iff.mp listed
  rw [Bool.and_comm]
  refine congrArg (· && _) ?_
  rw [Bool.eq_iff_iff, Plan.flawedConstraints]
  simp [mem_flawed_iff found]

namespace SameFixes

variable (alike : sketch.SameFixes other)

include alike

theorem brokenFeatures_eq :
    other.brokenFeatures other.flaws = sketch.brokenFeatures sketch.flaws := by
  have features := Alike.of_features_eq alike.features
  rw [brokenFeatures_flaws, brokenFeatures_flaws, brokenFeatures, brokenFeatures,
    featureFlaws_congr features, cycleFlaws_congr features, spreadBroken_congr features]

/-- **The constraints that fix something are flawed in one drawing if they are in the other.** -/
theorem map_fixes_eq : other.fixes.map (·.2) = sketch.fixes.map (·.2) := by
  rw [map_fixes, map_fixes, alike.fixed, alike.brokenFeatures_eq]
  simp only [constraintFault?_congr (Alike.of_features_eq alike.features)]

theorem place?_eq (p : Handle) : other.place? p = sketch.place? p := by
  have places : ∀ drawn : Sketch α, drawn.place? p =
      (drawn.fixes.map (·.2)).findIdx? fun constraint => p ∈ constraint.references := by
    intro drawn
    rw [List.findIdx?_map]
    rfl
  rw [places, places, alike.map_fixes_eq]

theorem binder?_eq (p : Handle) :
    (other.binder? p).map (·.2) = (sketch.binder? p).map (·.2) := by
  have binders : ∀ drawn : Sketch α, (drawn.binder? p).map (·.2) =
      (drawn.fixes.map (·.2)).find? fun constraint => p ∈ constraint.references := by
    intro drawn
    rw [List.find?_map]
    rfl
  rw [binders, binders, alike.map_fixes_eq]

omit [Scalar α] in
theorem ofSketch_eq : Pool.ofSketch other = Pool.ofSketch sketch := by
  rw [Pool.ofSketch_eq, Pool.ofSketch_eq, alike.features]

theorem freeKeys_eq {start' : Pool α} {blocks' : List (Block α)}
    (same : Pool.SameShape (Pool.ofSketch sketch) start)
    (same' : Pool.SameShape (Pool.ofSketch other) start')
    (pins : sketch.Pins start pool blocks) (pins' : other.Pins start' pool' blocks') :
    pool'.freeKeys = pool.freeKeys := by
  have keys : start'.keys = start.keys := by rw [same'.keys, alike.ofSketch_eq, same.keys]
  rw [Pool.freeKeys_eq, Pool.freeKeys_eq, pins'.keys, pins.keys, keys]
  refine List.filter_congr fun v _ => ?_
  have binder : other.binder? v.handle = none ↔ sketch.binder? v.handle = none := by
    rw [← Option.map_eq_none_iff (f := (·.2)), alike.binder?_eq, Option.map_eq_none_iff]
  rw [Bool.eq_iff_iff, pins'.isFree_iff (Pool.unbound_of_sameShape same'),
    pins.isFree_iff (Pool.unbound_of_sameShape same), keys, binder]

end SameFixes

end Sketch

/-! ### What is reported of a bound point -/

section Reporting

variable {plan : Plan α} {methods : Methods α} {options : Options α} {session session' : Session α}
  {result : Result α} {blocks : List (Block α)} {links : List (List Variable)}

/-- **A bound variable is reported as it is bound**, unless its island is skipped: no island solves
for it, and what is in no island keeps its value. -/
theorem reported_of_bound (components : Partition.Components plan.pool blocks links plan.islands)
    (islands : partition plan.pool blocks links = .ok plan.islands)
    (carried : session.carryOut methods options plan = (session', .ok result)) {v : Variable}
    (registered : v ∈ plan.pool.keys) (bound : plan.pool.isFree v = false) :
    result.Skips v ∨ result.value? v = some (plan.pool.valuation v) := by
  have told := told_of_carryOut components islands carried
  by_cases placed : ∃ island ∈ plan.islands, v ∈ island.members
  · obtain ⟨island, known, inside⟩ := placed
    by_cases sound : plan.faultsOf island.index = []
    · obtain ⟨s, solved, value⟩ := told.value island known sound
      obtain ⟨rfl, evaluates⟩ := Plan.evaluates_of_solved solved
      have constant : v ∉ s.island.unknowns := by
        intro unknown
        rw [components.unknowns_free s.island known v unknown] at bound
        cases bound
      rw [value v inside, evaluates.system, Equations.valuation_of_not_mem constant]
      exact .inr rfl
    · exact .inl (told.skips_iff.mpr ⟨island, known, sound, inside⟩)
  · exact .inr (value?_of_alone components islands carried registered placed)

/-- Both coordinates of each bound point are reported where the constraint fixes it, unless they
are skipped. -/
def Result.HoldsFixes (result : Result α) (sketch : Sketch α) : Prop :=
  ∀ p h constraint, sketch.binder? p = some (h, constraint) →
    (result.Skips ⟨p, .x⟩ ∨ result.value? ⟨p, .x⟩ = some constraint.position.x) ∧
      (result.Skips ⟨p, .y⟩ ∨ result.value? ⟨p, .y⟩ = some constraint.position.y)

theorem holdsFixes_of_solve {ν : Type} [Ordered ν] {numerals : Numerals ν α} {settings : Options ν}
    {sketch : Sketch α} {drag : Option (Drag α)}
    (done : session.solve numerals methods settings sketch drag = (session', .ok result)) :
    result.HoldsFixes sketch := by
  intro p h constraint binds
  obtain ⟨plan, blocks, -, made, components, carried⟩ := exists_plan_of_solve done
  have pins := Sketch.pins_of_compiled (session.sameShape_seeded sketch) made.compiled
  obtain ⟨foundX, foundY⟩ := pins.first p h constraint binds
  -- an entry with a binding is registered, bound and has its value
  have reported : ∀ {component : Component} {value : α},
      plan.pool.entry? ⟨p, component⟩ = some ⟨⟨p, component⟩, value, some h⟩ →
        result.Skips ⟨p, component⟩ ∨ result.value? ⟨p, component⟩ = some value := by
    intro component value found
    have bound : plan.pool.isFree ⟨p, component⟩ = false := by simp [Pool.isFree, found]
    have registered := Pool.mem_keys_iff.mpr ⟨_, found⟩
    have settled := reported_of_bound components made.islands carried registered bound
    rwa [Pool.valuation_of_found found] at settled
  exact ⟨reported foundX, reported foundY⟩

end Reporting

/-! ### The first constraint that fixes a point -/

/-- The pool of a drawing with some values seeded. -/
def Sketch.start (sketch : Sketch α) (values : List (Variable × α)) : Pool α :=
  ((Pool.ofSketch sketch).seed values).1

omit [Scalar α] in
theorem Sketch.sameShape_start (sketch : Sketch α) (values : List (Variable × α)) :
    Pool.SameShape (Pool.ofSketch sketch) (sketch.start values) :=
  Pool.sameShape_seed _ _

/-- The same constraints that fix something bind the same points in both drawings, whatever is
seeded, and leave the same variables free. -/
structure Sketch.BindsAlike (sketch other : Sketch α) : Prop where
  place? : ∀ p, other.place? p = sketch.place? p
  binder? : ∀ p, (other.binder? p).map (·.2) = (sketch.binder? p).map (·.2)
  freeKeys : ∀ values values' pool pool' blocks blocks',
    Plan.compiled sketch (sketch.start values) sketch.flaws = .ok (pool, blocks) →
      Plan.compiled other (other.start values') other.flaws = .ok (pool', blocks') →
        pool'.freeKeys = pool.freeKeys

/-- **The first constraint to fix a point wins, wherever it stands.** From whatever is seeded, each
drawing compiles, unless it asks for the direction of an infinite angle. A point is bound if a
constraint without a flaw fixes it, by the first one and where that one says; nothing else changes
in the pool, and the blocks are those of the arcs and then of the other constraints, each under its
own name. Moving constraints that fix nothing does not change what binds a point and what is free,
and every solve reports a bound point where it is fixed, unless it is skipped. -/
theorem first_fix_wins (sketch : Sketch α) :
    (∀ values,
      (∃ pool blocks,
        Plan.compiled sketch (sketch.start values) sketch.flaws = .ok (pool, blocks) ∧
          sketch.Pins (sketch.start values) pool blocks) ∨
      Plan.compiled sketch (sketch.start values) sketch.flaws = .error .infiniteAngle ∧
        sketch.AsksInfinite) ∧
    (∀ other, sketch.SameFixes other → sketch.BindsAlike other) ∧
    ∀ {ν : Type} [Ordered ν] (numerals : Numerals ν α) (methods : Methods α)
      (options : Options ν) (drag : Option (Drag α)) (session session' : Session α)
      (result : Result α),
      session.solve numerals methods options sketch drag = (session', .ok result) →
        result.HoldsFixes sketch := by
  refine ⟨fun values => ?_, fun other alike => ?_, ?_⟩
  · have same := sketch.sameShape_start values
    rcases Sketch.compiled_cases (Sketch.covers_of_sameShape same) with
      ⟨pool, blocks, done⟩ | infinite
    · exact .inl ⟨pool, blocks, done, Sketch.pins_of_compiled same done⟩
    · exact .inr infinite
  · refine ⟨alike.place?_eq, alike.binder?_eq, ?_⟩
    intro values values' pool pool' blocks blocks' done done'
    have same := sketch.sameShape_start values
    have same' := other.sameShape_start values'
    exact alike.freeKeys_eq same same' (Sketch.pins_of_compiled same done)
      (Sketch.pins_of_compiled same' done')
  · intro ν _ numerals methods options drag session session' result done
    exact holdsFixes_of_solve done

namespace Twice

/-- A point that is fixed twice, behind a constraint that does not fit it. -/
noncomputable def late : Sketch ℝ :=
  ⟨Pinned.spot.features, ⟨[⟨some (.plain .radius [⟨0, 0⟩] none none), 0⟩,
    ⟨some (.fixed ⟨0, 0⟩ ⟨1, 1⟩), 0⟩, ⟨some (.fixed ⟨0, 0⟩ ⟨-1, -1⟩), 0⟩]⟩, []⟩

/-- The same with that constraint in between. -/
noncomputable def between : Sketch ℝ :=
  ⟨Pinned.spot.features, ⟨[⟨some (.fixed ⟨0, 0⟩ ⟨1, 1⟩), 0⟩,
    ⟨some (.plain .radius [⟨0, 0⟩] none none), 0⟩, ⟨some (.fixed ⟨0, 0⟩ ⟨-1, -1⟩), 0⟩]⟩, []⟩

theorem sameFixes : late.SameFixes between := ⟨rfl, rfl⟩

theorem compiled : Plan.compiled late (late.start [(⟨⟨0, 0⟩, .x⟩, -1)]) late.flaws =
    .ok ((late.start []).pin ⟨0, 0⟩ ⟨1, 1⟩ ⟨1, 0⟩,
      [⟨.constraint ⟨2, 0⟩ .fixed, .fixed ⟨0, 0⟩ ⟨-1, -1⟩⟩]) := by
  cbv

end Twice

theorem first_fix_wins_twice :
    Twice.late.Pins (Twice.late.start [(⟨⟨0, 0⟩, .x⟩, -1)])
      ((Twice.late.start []).pin ⟨0, 0⟩ ⟨1, 1⟩ ⟨1, 0⟩)
      [⟨.constraint ⟨2, 0⟩ .fixed, .fixed ⟨0, 0⟩ ⟨-1, -1⟩⟩] ∧
    Twice.late.BindsAlike Twice.between ∧
    (⟨[(⟨⟨0, 0⟩, .x⟩, 1), (⟨⟨0, 0⟩, .y⟩, 1)], [], []⟩ : Result ℝ).HoldsFixes Pinned.pinned := by
  refine ⟨?_, (first_fix_wins Twice.late).2.1 _ Twice.sameFixes,
    (first_fix_wins Pinned.pinned).2.2 _ .orthogonal _ none _ _ _ (Pinned.solve_pinned _)⟩
  rcases (first_fix_wins Twice.late).1 [(⟨⟨0, 0⟩, .x⟩, -1)] with
    ⟨pool, blocks, done, pins⟩ | ⟨failed, -⟩
  · rw [Twice.compiled] at done
    cases done
    exact pins
  · rw [Twice.compiled] at failed
    cases failed

end PlaneSketch
