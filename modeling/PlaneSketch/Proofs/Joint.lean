import Mathlib
import PlaneSketch.Proofs.Appending
import PlaneSketch.Proofs.Faults

/-!
What a joint drawing is made of.

A drawing that is `Within` a joint one is registered, compiled and grouped in it as it is by itself.
All that comes from the other part are strangers: variables, blocks and links that have nothing to
do with the drawing.

* `Within.prolongs_ofSketch`: the pool of the joint drawing starts with that of the drawing.
* `Within.compiled_woven`: the blocks of the drawing are among those of the joint one, in order.
* `Within.touched_woven`: so are the variables that its flaws touch.
* `Among.exists_island`: what stands among strangers falls into the same islands, numbers apart.
-/

namespace PlaneSketch

namespace Sketch

variable {α : Type} {sketch joint : Sketch α} {features : List (Handle × Feature α)}
  {constraints : List (Handle × Constraint α)}

/-! ### The pool of a joint drawing -/

/-- The larger pool has the variables of the drawing first, with the same values and bindings. -/
structure Prolongs (sketch : Sketch α) (pool larger : Pool α) : Prop where
  entries : ∃ more, larger.entries = pool.entries ++ more ∧
    ∀ entry ∈ more, sketch.isLive entry.key.handle = false
  own : ∀ v ∈ pool.keys, sketch.isLive v.handle = true

namespace Prolongs

variable {pool larger : Pool α} {v : Variable} {p : Handle}

section Reading

variable (prolongs : sketch.Prolongs pool larger)

include prolongs

theorem entry?_eq (live : sketch.isLive v.handle = true) : larger.entry? v = pool.entry? v := by
  obtain ⟨more, entries, outside⟩ := prolongs.entries
  have none : more.find? (fun entry => entry.key = v) = none := by
    refine List.find?_eq_none.mpr fun entry listed => ?_
    simp only [decide_eq_true_eq]
    rintro rfl
    rw [outside entry listed] at live
    cases live
  rw [Pool.entry?, entries, List.find?_append, none, Option.or_none, Pool.entry?]

theorem mem_keys_iff (live : sketch.isLive v.handle = true) : v ∈ larger.keys ↔ v ∈ pool.keys := by
  rw [Pool.mem_keys_iff, Pool.mem_keys_iff, prolongs.entry?_eq live]

theorem contains_eq (live : sketch.isLive v.handle = true) :
    larger.contains v = pool.contains v := by
  rw [Bool.eq_iff_iff, Pool.contains_iff, Pool.contains_iff, prolongs.mem_keys_iff live]

theorem isFree_eq (live : sketch.isLive v.handle = true) : larger.isFree v = pool.isFree v := by
  rw [Pool.isFree, Pool.isFree, prolongs.entry?_eq live]

theorem binding?_eq (live : sketch.isLive v.handle = true) :
    larger.binding? v = pool.binding? v := by
  rw [Pool.binding?, Pool.binding?, prolongs.entry?_eq live]

theorem value_eq (live : sketch.isLive v.handle = true) : larger.value v = pool.value v := by
  rw [Pool.value, Pool.value, prolongs.entry?_eq live]

theorem valuation_eq [Scalar α] (live : sketch.isLive v.handle = true) :
    larger.valuation v = pool.valuation v := by
  rw [Pool.valuation, Pool.valuation, prolongs.value_eq live]

theorem point_eq (live : sketch.isLive p = true) : larger.point p = pool.point p := by
  have atX : larger.value ⟨p, .x⟩ = pool.value ⟨p, .x⟩ := prolongs.value_eq live
  have atY : larger.value ⟨p, .y⟩ = pool.value ⟨p, .y⟩ := prolongs.value_eq live
  rw [Pool.point, Pool.point, atX, atY]

theorem isPinned_eq (live : sketch.isLive p = true) : larger.isPinned p = pool.isPinned p := by
  have isX : larger.binding? ⟨p, .x⟩ = pool.binding? ⟨p, .x⟩ := prolongs.binding?_eq live
  have isY : larger.binding? ⟨p, .y⟩ = pool.binding? ⟨p, .y⟩ := prolongs.binding?_eq live
  rw [Pool.isPinned, Pool.isPinned, isX, isY]

theorem keys_woven :
    Woven (fun v : Variable => sketch.isLive v.handle = false) pool.keys larger.keys := by
  obtain ⟨more, entries, outside⟩ := prolongs.entries
  rw [Pool.keys, Pool.keys, entries, List.map_append]
  refine .behind _ fun v listed => ?_
  obtain ⟨entry, added, rfl⟩ := List.mem_map.mp listed
  exact outside entry added

end Reading

end Prolongs

theorem exists_entries_add (pairs : List (Variable × α)) (pool : Pool α) :
    ∃ more, (pairs.foldl (fun pool pair => pool.add pair.1 pair.2) pool).entries =
      pool.entries ++ more ∧ ∀ entry ∈ more, entry.key ∈ pairs.map (·.1) := by
  induction pairs generalizing pool with
  | nil => exact ⟨[], by simp, by simp⟩
  | cons pair pairs ih =>
    obtain ⟨more, entries, added⟩ := ih (pool.add pair.1 pair.2)
    have later : ∀ entry ∈ more, entry.key ∈ (pair :: pairs).map (·.1) :=
      fun entry listed => List.mem_cons_of_mem _ (added entry listed)
    rw [List.foldl_cons, entries]
    unfold Pool.add
    split
    · exact ⟨more, rfl, later⟩
    · refine ⟨⟨pair.1, pair.2, none⟩ :: more, by simp, List.forall_mem_cons.mpr ⟨?_, later⟩⟩
      exact List.mem_cons_self

/-- **The joint drawing registers the variables of the drawing first**, and nothing more of it. -/
theorem Within.prolongs_ofSketch (within : sketch.Within joint features constraints) :
    sketch.Prolongs (Pool.ofSketch sketch) (Pool.ofSketch joint) where
  entries := by
    obtain ⟨more, entries, added⟩ := exists_entries_add
      (features.flatMap fun item => Pool.unknownsOf item.1 item.2) (Pool.ofSketch sketch)
    refine ⟨more, ?_, fun entry listed => ?_⟩
    · rw [Pool.ofSketch_eq joint, within.features_eq, List.flatMap_append, List.foldl_append,
        ← Pool.ofSketch_eq sketch, entries]
    · obtain ⟨pair, placed, same⟩ := List.mem_map.mp (added entry listed)
      obtain ⟨item, stranger, unknown⟩ := List.mem_flatMap.mp placed
      obtain ⟨component, -, rfl⟩ := List.mem_map.mp unknown
      rw [← same]
      exact within.isLive_of_added stranger
  own := by
    intro v registered
    obtain ⟨feature, found, -⟩ := Pool.mem_keys_ofSketch.mp registered
    exact isLive_iff.mpr ⟨feature, found⟩

/-! ### Changing the pools -/

theorem entries_pin (pool : Pool α) (p : Handle) (position : Vec2 α) (h : Handle) :
    (pool.pin p position h).entries = pool.entries.map fun entry =>
      if entry.key.handle = p then Pool.pinnedEntry entry position h else entry := by
  rw [Pool.pin, Pool.entries_modify, Pool.entries_modify, List.map_map]
  refine List.map_congr_left fun entry _ => ?_
  obtain ⟨⟨k, component⟩, value, binding⟩ := entry
  by_cases same : k = p <;> cases component <;> simp [Pool.pinnedEntry, same]

theorem key_pinned (entry : Entry α) (p : Handle) (position : Vec2 α) (h : Handle) :
    (if entry.key.handle = p then Pool.pinnedEntry entry position h else entry).key =
      entry.key := by
  unfold Pool.pinnedEntry
  split
  · split <;> rfl
  · rfl

theorem entries_write (pool : Pool α) (v : Variable) (value : α) :
    (pool.write v value).entries = pool.entries.map fun entry =>
      if entry.key = v then { entry with value } else entry := rfl

namespace Prolongs

variable {pool pool' larger larger' : Pool α} {v : Variable} {p : Handle}
  {change : Entry α → Entry α}

section Steps

variable (prolongs : sketch.Prolongs pool larger)

include prolongs

/-- A change of all entries of both pools. -/
theorem map (key : ∀ entry, (change entry).key = entry.key)
    (entries : pool'.entries = pool.entries.map change)
    (entries' : larger'.entries = larger.entries.map change) : sketch.Prolongs pool' larger' where
  entries := by
    obtain ⟨more, before, outside⟩ := prolongs.entries
    refine ⟨more.map change, by rw [entries', before, List.map_append, entries], ?_⟩
    intro entry listed
    obtain ⟨entry', added, rfl⟩ := List.mem_map.mp listed
    rw [key]
    exact outside entry' added
  own := by
    have keys : pool'.keys = pool.keys := by
      rw [Pool.keys, Pool.keys, entries, List.map_map]
      exact List.map_congr_left fun entry _ => key entry
    rw [keys]
    exact prolongs.own

/-- A change of the larger pool that leaves the entries of the drawing as they are. -/
theorem map_outside (key : ∀ entry, (change entry).key = entry.key)
    (same : ∀ entry, sketch.isLive entry.key.handle = true → change entry = entry)
    (entries' : larger'.entries = larger.entries.map change) : sketch.Prolongs pool larger' := by
  refine prolongs.map key ?_ entries'
  have own : ∀ entry ∈ pool.entries, change entry = entry := fun entry listed =>
    same entry (prolongs.own _ (List.mem_map_of_mem listed))
  rw [List.map_congr_left own, List.map_id']

/-- A point of the drawing is bound in both pools. -/
theorem pin (p : Handle) (position : Vec2 α) (h : Handle) :
    sketch.Prolongs (pool.pin p position h) (larger.pin p position h) :=
  prolongs.map (fun entry => key_pinned entry p position h) (entries_pin _ _ _ _)
    (entries_pin _ _ _ _)

/-- A point outside the drawing is bound. -/
theorem pin_outside (outside : sketch.isLive p = false) (position : Vec2 α) (h : Handle) :
    sketch.Prolongs pool (larger.pin p position h) := by
  refine prolongs.map_outside (fun entry => key_pinned entry p position h) (fun entry live => ?_)
    (entries_pin _ _ _ _)
  refine if_neg ?_
  rintro rfl
  rw [outside] at live
  cases live

/-- A variable is given a value in both pools, if it is free. -/
theorem write (v : Variable) (value : α) :
    sketch.Prolongs (if pool.isFree v then pool.write v value else pool)
      (if larger.isFree v then larger.write v value else larger) := by
  have key : ∀ entry : Entry α,
      (if entry.key = v then { entry with value } else entry).key = entry.key := by
    intro entry
    split <;> rfl
  cases live : sketch.isLive v.handle with
  | true =>
    rw [prolongs.isFree_eq live]
    split
    · exact prolongs.map key (entries_write _ _ _) (entries_write _ _ _)
    · exact prolongs
  | false =>
    have missing : pool.isFree v = false := by
      rw [Bool.eq_false_iff]
      intro free
      rw [prolongs.own v (Pool.mem_keys_of_isFree free)] at live
      cases live
    rw [missing, if_neg Bool.false_ne_true]
    split
    · refine prolongs.map_outside key (fun entry live' => if_neg ?_) (entries_write _ _ _)
      rintro rfl
      rw [live] at live'
      cases live'
    · exact prolongs

end Steps

/-- Both pools are seeded with the same values. -/
theorem seed (prolongs : sketch.Prolongs pool larger) (values : List (Variable × α)) :
    sketch.Prolongs (pool.seed values).1 (larger.seed values).1 := by
  induction values generalizing pool larger with
  | nil => exact prolongs
  | cons pair values ih =>
    rw [Pool.seed_cons, Pool.seed_cons]
    exact ih (prolongs.write pair.1 pair.2)

end Prolongs

/-! ### Compiling -/

section Compiling

variable [Scalar α] {pool pool' larger larger' : Pool α}
  {items others : List (Handle × Constraint α)}
  {blocks blocks' : List (Block α)} {skip skip' : List Handle}

/-- The block reads nothing of the drawing. -/
def ForeignBlock (sketch : Sketch α) (block : Block α) : Prop :=
  ∀ v ∈ block.unknowns, sketch.isLive v.handle = false

theorem compileConstraints_append_eq_ok_iff :
    sketch.compileConstraints pool (items ++ others) = .ok (pool', blocks) ↔
      ∃ between first later, sketch.compileConstraints pool items = .ok (between, first) ∧
        sketch.compileConstraints between others = .ok (pool', later) ∧
        blocks = first ++ later := by
  induction items generalizing pool blocks with
  | nil => simp [compileConstraints]
  | cons item items ih =>
    obtain ⟨h, constraint⟩ := item
    simp only [List.cons_append, compileConstraints_cons_eq_ok_iff, ih]
    constructor
    · rintro ⟨start, own, rest, step, ⟨between, first, later, before, after, rfl⟩, rfl⟩
      exact ⟨between, own ++ first, later, ⟨start, own, first, step, before, rfl⟩, after,
        (List.append_assoc _ _ _).symm⟩
    · rintro ⟨between, _, later, ⟨start, own, first, step, before, rfl⟩, after, rfl⟩
      exact ⟨start, own, first ++ later, step, ⟨between, first, later, before, after, rfl⟩,
        List.append_assoc _ _ _⟩

variable (within : sketch.Within joint features constraints)

include within

/-- **Fit constraints of the drawing compile to the same blocks** in the joint drawing, and bind the
same points. -/
theorem Within.compileConstraints_within (prolongs : sketch.Prolongs pool larger)
    (fit : ∀ item ∈ items, (∀ r ∈ item.2.references, sketch.isLive r = true) ∧
      ∃ kinds, sketch.Fit item.2 kinds)
    (done : sketch.compileConstraints pool items = .ok (pool', blocks)) :
    ∃ larger', joint.compileConstraints larger items = .ok (larger', blocks) ∧
      sketch.Prolongs pool' larger' := by
  induction items generalizing pool larger blocks with
  | nil =>
    cases done
    exact ⟨larger, rfl, prolongs⟩
  | cons item items ih =>
    obtain ⟨h, constraint⟩ := item
    obtain ⟨⟨live, kinds, fits⟩, fit⟩ := List.forall_mem_cons.mp fit
    have fixed_live : ∀ {p}, constraint.Fixes p → sketch.isLive p = true :=
      fun fixes => live _ (List.mem_of_getElem? fixes.2)
    obtain ⟨between, own, rest, first, later, rfl⟩ := compileConstraints_cons_eq_ok_iff.mp done
    have step : ∃ between', joint.Compiled larger h constraint between' own ∧
        sketch.Prolongs between between' := by
      cases first with
      | @bound p fixes unpinned hasX hasY =>
        have liveP := fixed_live fixes
        refine ⟨_, .bound fixes ?_ ?_ ?_, prolongs.pin _ _ _⟩
        · rw [prolongs.isPinned_eq liveP, unpinned]
        · exact (prolongs.mem_keys_iff liveP).mpr hasX
        · exact (prolongs.mem_keys_iff liveP).mpr hasY
      | block pinned found =>
        have demands := (fits.demands found).mono within.feature?_of_found
        refine ⟨larger, .block (fun p fixes => ?_) (demands.compiles h), prolongs⟩
        rw [prolongs.isPinned_eq (fixed_live fixes), pinned p fixes]
    obtain ⟨between', first', prolongs'⟩ := step
    obtain ⟨larger', later', prolongs''⟩ := ih prolongs' fit later
    exact ⟨larger', compileConstraints_cons_eq_ok_iff.mpr
      ⟨between', own, rest, first', later', rfl⟩, prolongs''⟩

/-- Fit constraints outside the drawing bind nothing of it, and their blocks read nothing of it. -/
theorem Within.compileConstraints_outside (prolongs : sketch.Prolongs pool larger)
    (fit : ∀ item ∈ items, (∀ r ∈ item.2.references, sketch.isLive r = false) ∧
      ∃ kinds, joint.Fit item.2 kinds)
    (done : joint.compileConstraints larger items = .ok (larger', blocks)) :
    sketch.Prolongs pool larger' ∧ ∀ block ∈ blocks, sketch.ForeignBlock block := by
  induction items generalizing larger blocks with
  | nil =>
    cases done
    exact ⟨prolongs, by simp⟩
  | cons item items ih =>
    obtain ⟨h, constraint⟩ := item
    obtain ⟨⟨outside, kinds, fits⟩, fit⟩ := List.forall_mem_cons.mp fit
    obtain ⟨between, own, rest, first, later, rfl⟩ := compileConstraints_cons_eq_ok_iff.mp done
    have step : sketch.Prolongs pool between ∧ ∀ block ∈ own, sketch.ForeignBlock block := by
      cases first with
      | bound fixes unpinned hasX hasY =>
        exact ⟨prolongs.pin_outside (outside _ (List.mem_of_getElem? fixes.2)) _ _, by simp⟩
      | block pinned found =>
        refine ⟨prolongs, List.forall_mem_singleton.mpr fun v read => ?_⟩
        have beyond : ∀ {h kind parts}, joint.Built h kind parts → sketch.isLive h = false →
            ∀ p ∈ parts, sketch.isLive p = false := by
          rintro h kind parts ⟨⟨feature, found, -, rfl⟩, -⟩ outside p referred
          exact within.outside_of_referred outside found referred
        exact (fits.demands found).slots_of beyond outside v (mem_firstOccurrences.mp read)
    obtain ⟨prolongs', foreign⟩ := ih step.1 fit later
    exact ⟨prolongs', List.forall_mem_append.mpr ⟨step.2, foreign⟩⟩

omit [Scalar α] in
/-- Arcs of the drawing come first, and the others read nothing of it. -/
theorem Within.arcBlocks_append (same : ∀ item ∈ sketch.features.items,
      skip'.contains item.1 = skip.contains item.1)
    (done : sketch.arcBlocks skip = .ok blocks) (done' : joint.arcBlocks skip' = .ok blocks') :
    ∃ more, blocks' = blocks ++ more ∧ ∀ block ∈ more, sketch.ForeignBlock block := by
  have own : (sketch.features.items.filter fun item =>
      item.2.kind = .arc && !skip'.contains item.1) =
        sketch.features.items.filter fun item => item.2.kind = .arc && !skip.contains item.1 :=
    List.filter_congr fun item listed => by rw [same item listed]
  have split : joint.features.items.filter (fun item =>
      item.2.kind = .arc && !skip'.contains item.1) =
        (sketch.features.items.filter fun item =>
          item.2.kind = .arc && !skip.contains item.1) ++
        features.filter fun item => item.2.kind = .arc && !skip'.contains item.1 := by
    rw [within.features_eq, List.filter_append, own]
  rw [arcBlocks, split, List.mapM_append] at done'
  obtain ⟨first, compiled, rest⟩ := bind_eq_ok_iff.mp done'
  obtain ⟨more, compiled', ended⟩ := bind_eq_ok_iff.mp rest
  obtain rfl := Except.ok.inj (compiled.symm.trans done)
  refine ⟨more, (Except.ok.inj ended).symm, fun block listed v read => ?_⟩
  obtain ⟨⟨h, feature⟩, kept, built⟩ := mem_of_mapM_eq_ok compiled' listed
  obtain ⟨relation, arc, made⟩ := bind_eq_ok_iff.mp built
  obtain ⟨start, center, finish, references, rfl⟩ := arcRelation_eq_ok_iff.mp arc
  cases made
  have slot := handle_of_coordinates (mem_firstOccurrences.mp read)
  rw [← references] at slot
  exact within.feature_apart _ (List.mem_filter.mp kept).1 _ slot

/-- Constraints of the drawing are kept in the joint one as they are by themselves. -/
theorem Within.mem_flawedConstraints_iff {h : Handle} (live : sketch.constraints.isLive h = true) :
    h ∈ Plan.flawedConstraints joint.flaws ↔ h ∈ Plan.flawedConstraints sketch.flaws := by
  simp only [Plan.flawedConstraints, List.mem_filterMap]
  constructor
  · rintro ⟨flaw, flawed, owner⟩
    rcases within.flaws_woven.mem_cases flawed with own | foreign
    · exact ⟨flaw, own, owner⟩
    · rw [foreign.constraint h owner] at live
      cases live
  · rintro ⟨flaw, flawed, owner⟩
    exact ⟨flaw, within.flaws_woven.subset flawed, owner⟩

theorem Within.kept_append :
    joint.kept (Plan.flawedConstraints joint.flaws) =
      sketch.kept (Plan.flawedConstraints sketch.flaws) ++
        constraints.filter fun item => !(Plan.flawedConstraints joint.flaws).contains item.1 := by
  rw [kept, kept, within.constraints_eq, List.filter_append]
  congr 1
  refine List.filter_congr fun item listed => congrArg _ ?_
  rw [Bool.eq_iff_iff, List.contains_iff_mem, List.contains_iff_mem]
  exact within.mem_flawedConstraints_iff (Arena.mem_handles_iff.mp (List.mem_map_of_mem listed))

/-- **A drawing compiles in the joint one to what it compiles to by itself**, with blocks in between
that read nothing of it. -/
theorem Within.compiled_woven (prolongs : sketch.Prolongs pool larger)
    (done : Plan.compiled sketch pool sketch.flaws = .ok (pool', blocks))
    (done' : Plan.compiled joint larger joint.flaws = .ok (larger', blocks')) :
    sketch.Prolongs pool' larger' ∧ Woven sketch.ForeignBlock blocks blocks' := by
  obtain ⟨arcs, own, compiledArcs, compiled, rfl⟩ := compile_eq_ok_iff.mp done
  obtain ⟨arcs', own', compiledArcs', compiled', rfl⟩ := compile_eq_ok_iff.mp done'
  obtain ⟨foreignArcs, rfl, outside⟩ := within.arcBlocks_append (fun item listed => by
    rw [Bool.eq_iff_iff, List.contains_iff_mem, List.contains_iff_mem]
    exact within.mem_brokenFeatures_iff within.flaws_woven
      (Arena.mem_handles_iff.mp (List.mem_map_of_mem listed))) compiledArcs compiledArcs'
  rw [within.kept_append, compileConstraints_append_eq_ok_iff] at compiled'
  obtain ⟨between, first, later, before, after, rfl⟩ := compiled'
  have fit : ∀ item ∈ sketch.kept (Plan.flawedConstraints sketch.flaws),
      (∀ r ∈ item.2.references, sketch.isLive r = true) ∧ ∃ kinds, sketch.Fit item.2 kinds := by
    rintro ⟨h, constraint⟩ listed
    obtain ⟨found, sound⟩ := mem_kept_iff.mp listed
    exact ⟨within.closed.constraints _ (List.mem_filter.mp listed).1, fit_of_not_flawed found sound⟩
  have fit' : ∀ item ∈ constraints.filter fun item =>
      !(Plan.flawedConstraints joint.flaws).contains item.1,
      (∀ r ∈ item.2.references, sketch.isLive r = false) ∧ ∃ kinds, joint.Fit item.2 kinds := by
    rintro ⟨h, constraint⟩ listed
    have listed' : (h, constraint) ∈ joint.kept (Plan.flawedConstraints joint.flaws) := by
      rw [within.kept_append]
      exact List.mem_append_right _ listed
    obtain ⟨found, sound⟩ := mem_kept_iff.mp listed'
    exact ⟨within.constraint_apart _ (List.mem_filter.mp listed).1, fit_of_not_flawed found sound⟩
  obtain ⟨between', before', prolongs'⟩ := within.compileConstraints_within prolongs fit compiled
  obtain ⟨rfl, rfl⟩ : between' = between ∧ own = first := by simpa using before'.symm.trans before
  obtain ⟨prolongs'', outside'⟩ := within.compileConstraints_outside prolongs' fit' after
  exact ⟨prolongs'', (Woven.behind arcs outside).append (.behind own outside')⟩

end Compiling

/-! ### What flaws touch -/

section Touching

variable {pool larger : Pool α} {handles : List Handle} {v : Variable}
  (within : sketch.Within joint features constraints)

include within

/-- **The closure of features of the drawing is the same** in the joint one. -/
theorem Within.closure_within (prolongs : sketch.Prolongs pool larger)
    (live : ∀ h ∈ handles, sketch.isLive h = true) :
    joint.closure larger handles = sketch.closure pool handles := by
  suffices search : ∀ visited waiting, (∀ h ∈ waiting, sketch.isLive h = true) →
      joint.closureFrom larger visited waiting = sketch.closureFrom pool visited waiting from
    search [] handles live
  intro visited waiting live
  fun_induction closureFrom sketch pool visited waiting with
  | case1 => rw [closureFrom]
  | case2 visited h rest seen ih =>
    rw [closureFrom, dif_pos seen, ih (List.forall_mem_cons.mp live).2]
  | case3 visited h rest fresh dead ih =>
    obtain ⟨feature, found⟩ := isLive_iff.mp (List.forall_mem_cons.mp live).1
    rw [dead] at found
    cases found
  | case4 visited h rest fresh feature found ih =>
    obtain ⟨liveH, live⟩ := List.forall_mem_cons.mp live
    have registered : variablesOf larger h = variablesOf pool h := by
      refine List.filter_congr fun v listed => prolongs.contains_eq ?_
      simp only [List.mem_cons, List.not_mem_nil, or_false] at listed
      rcases listed with rfl | rfl | rfl <;> exact liveH
    have referred := fun r => within.isLive_of_referred (r := r) found
    rw [closureFrom, dif_neg fresh]
    split
    · rename_i dead
      rw [within.feature?_of_found found] at dead
      cases dead
    · rename_i feature' found'
      obtain rfl := Option.some.inj ((within.feature?_of_found found).symm.trans found')
      rw [registered, ih fun r waits => (List.mem_append.mp waits).elim (live r) (referred r)]

/-- What is built outside the drawing reaches nothing of it. -/
theorem Within.outside_of_mem_closure (outside : ∀ h ∈ handles, sketch.isLive h = false)
    (touched : v ∈ joint.closure larger handles) : sketch.isLive v.handle = false := by
  obtain ⟨-, -, h, listed, path⟩ := Sketch.mem_closure_iff.mp touched
  have beyond := outside h listed
  clear listed touched
  generalize v.handle = k at path
  induction path with
  | refl => exact beyond
  | step _ found referred _ ih => exact ih (within.outside_of_referred beyond found referred)

/-- **What the flaws of the drawing touch is the same** in the joint one, and the other flaws touch
nothing of it. -/
theorem Within.touched_woven [Scalar α] (prolongs : sketch.Prolongs pool larger) :
    Woven (fun link : List Variable => ∀ v ∈ link, sketch.isLive v.handle = false)
      (sketch.flaws.map (Plan.touched sketch pool)) (joint.flaws.map (Plan.touched joint larger)) :=
  within.flaws_woven.map
    (fun _ flawed => within.closure_within prolongs (within.isLive_of_flaw flawed))
    fun _ foreign _ touched => within.outside_of_mem_closure foreign.references touched

end Touching

end Sketch

/-! ### Islands among strangers -/

namespace Partition

variable {α : Type} {sketch : Sketch α}

/-- The two are the coordinates of one free point, or something puts them together. -/
def Together (pool : Pool α) (blocks : List (Block α)) (links : List (List Variable))
    (u v : Variable) : Prop :=
  Coordinates pool u v ∨ ∃ group ∈ groups pool blocks links, u ∈ group ∧ v ∈ group

theorem root_eq_iff_together {pool : Pool α} {blocks : List (Block α)}
    {links : List (List Variable)} {u v : Variable} :
    (sets pool blocks links).root u = (sets pool blocks links).root v ↔
      Relation.EqvGen (Together pool blocks links) u v := by
  rw [sets_eq]
  exact (joinPoints_spec.1.foldl_unionAll _).root_eq_iff u v

/-- What is to be grouped for the drawing stands among strangers. -/
structure Among (sketch : Sketch α) (pool larger : Pool α) (blocks blocks' : List (Block α))
    (links links' : List (List Variable)) : Prop where
  prolongs : sketch.Prolongs pool larger
  woven_blocks : Woven sketch.ForeignBlock blocks blocks'
  woven_links : Woven (fun link : List Variable => ∀ v ∈ link, sketch.isLive v.handle = false)
    links links'
  own_blocks : ∀ block ∈ blocks, ∀ v ∈ block.unknowns, sketch.isLive v.handle = true
  own_links : ∀ link ∈ links, ∀ v ∈ link, sketch.isLive v.handle = true

namespace Among

variable {pool larger : Pool α} {blocks blocks' : List (Block α)}
  {links links' : List (List Variable)} {group : List Variable} {u v : Variable}
  (among : Among sketch pool larger blocks blocks' links links')

include among

theorem relevant_eq (live : ∀ v ∈ group, sketch.isLive v.handle = true) :
    relevant larger group = relevant pool group := by
  have free : group.filter larger.isFree = group.filter pool.isFree :=
    List.filter_congr fun v member => among.prolongs.isFree_eq (live v member)
  simp only [relevant, free]

theorem counting_eq {link : List Variable} (given : link ∈ links) :
    counting larger link = counting pool link := by
  have registered : link.filter larger.contains = link.filter pool.contains :=
    List.filter_congr fun v member =>
      among.prolongs.contains_eq (among.own_links link given v member)
  rw [counting, counting, registered]
  exact among.relevant_eq fun v member => among.own_links link given v (List.mem_filter.mp member).1

theorem own_groups (listed : group ∈ groups pool blocks links) :
    ∀ v ∈ group, sketch.isLive v.handle = true := by
  intro v member
  rcases mem_groups_iff.mp listed with ⟨block, given, rfl⟩ | ⟨link, given, rfl⟩
  · exact among.own_blocks block given v (mem_relevant_iff.mp member).1
  · exact among.own_links link given v (List.mem_filter.mp (mem_relevant_iff.mp member).1).1

/-- What is put together for the drawing is put together in the larger task, and all else that is
put together there has nothing to do with it. -/
theorem groups_woven : Woven (fun group => ∀ v ∈ group, sketch.isLive v.handle = false)
    (groups pool blocks links) (groups larger blocks' links') := by
  refine Woven.append ?_ ?_
  · refine among.woven_blocks.map
      (fun block given => among.relevant_eq (among.own_blocks block given)) ?_
    exact fun block foreign v member => foreign v (mem_relevant_iff.mp member).1
  · refine among.woven_links.map (fun link given => among.counting_eq given) ?_
    exact fun link foreign v member =>
      foreign v (List.mem_filter.mp (mem_relevant_iff.mp member).1).1

theorem coordinates_iff (live : sketch.isLive u.handle = true) :
    Coordinates larger u v ↔ Coordinates pool u v := by
  have partner : sketch.isLive (⟨u.handle, .y⟩ : Variable).handle = true := live
  rw [Coordinates, Coordinates, among.prolongs.isFree_eq live]
  refine and_congr_right fun _ => and_congr_right fun same => ?_
  rw [same, among.prolongs.isFree_eq partner]

/-- **A step from the drawing stays in it**, and is one of its own. -/
theorem step_cases (step : Together larger blocks' links' u v) :
    sketch.isLive u.handle = sketch.isLive v.handle ∧
      (sketch.isLive u.handle = true → Together pool blocks links u v) := by
  rcases step with step | ⟨group, listed, memberU, memberV⟩
  · refine ⟨?_, fun live => .inl ((among.coordinates_iff live).mp step)⟩
    rw [step.2.1]
  · rcases among.groups_woven.mem_cases listed with own | foreign
    · have live := among.own_groups own
      exact ⟨(live u memberU).trans (live v memberV).symm,
        fun _ => .inr ⟨group, own, memberU, memberV⟩⟩
    · refine ⟨(foreign u memberU).trans (foreign v memberV).symm, fun live => ?_⟩
      rw [foreign u memberU] at live
      cases live

theorem step_mono (step : Together pool blocks links u v) : Together larger blocks' links' u v := by
  rcases step with step | ⟨group, listed, both⟩
  · have live := among.prolongs.own u (Pool.mem_keys_of_isFree step.2.2.1)
    exact .inl ((among.coordinates_iff live).mpr step)
  · exact .inr ⟨group, among.groups_woven.subset listed, both⟩

/-- Variables that are grouped together belong to the drawing, or none does. -/
theorem isLive_eq_of_root_eq
    (same : (sets larger blocks' links').root u = (sets larger blocks' links').root v) :
    sketch.isLive u.handle = sketch.isLive v.handle := by
  rw [root_eq_iff_together] at same
  induction same with
  | rel u v step => exact (among.step_cases step).1
  | refl u => rfl
  | symm u v _ ih => exact ih.symm
  | trans u v w _ _ ih ih' => exact ih.trans ih'

/-- **Variables of the drawing are grouped together in both or in none.** -/
theorem root_eq_iff (live : sketch.isLive u.handle = true) :
    (sets larger blocks' links').root u = (sets larger blocks' links').root v ↔
      (sets pool blocks links).root u = (sets pool blocks links).root v := by
  rw [root_eq_iff_together, root_eq_iff_together]
  refine ⟨fun chain => ?_, fun chain =>
    Relation.EqvGen.mono (fun _ _ => among.step_mono) _ _ chain⟩
  -- the chain does not leave the drawing, so that each step is one of its own
  induction chain with
  | rel u v step => exact .rel _ _ ((among.step_cases step).2 live)
  | refl u => exact .refl u
  | symm u v chain ih =>
    have sides := among.isLive_eq_of_root_eq (root_eq_iff_together.mpr chain)
    exact (ih (sides.trans live)).symm
  | trans u v w first _ ih ih' =>
    have sides := among.isLive_eq_of_root_eq (root_eq_iff_together.mpr first)
    exact (ih live).trans _ _ _ (ih' (sides.symm.trans live))

theorem contains_iff (live : sketch.isLive v.handle = true) :
    (sets larger blocks' links').contains v = true ↔
      (sets pool blocks links).contains v = true := by
  rw [contains_sets, contains_sets, among.prolongs.isFree_eq live]
  refine or_congr_right ⟨?_, ?_⟩
  · rintro ⟨group, listed, two, member⟩
    rcases among.groups_woven.mem_cases listed with own | foreign
    · exact ⟨group, own, two, member⟩
    · rw [foreign v member] at live
      cases live
  · rintro ⟨group, listed, held⟩
    exact ⟨group, among.groups_woven.subset listed, held⟩

/-- What is grouped with a variable of the drawing is the same, in the same order. -/
theorem rooted_eq (live : sketch.isLive u.handle = true) :
    rooted larger (sets larger blocks' links') ((sets larger blocks' links').root u) =
      rooted pool (sets pool blocks links) ((sets pool blocks links).root u) := by
  rw [rooted, rooted, List.filter_filter, List.filter_filter]
  refine among.prolongs.keys_woven.filter_eq (fun v registered => ?_) fun v outside => ?_
  · have liveV := among.prolongs.own v registered
    have same := among.root_eq_iff (v := u) liveV
    rw [Bool.eq_iff_iff]
    simp only [Bool.and_eq_true, decide_eq_true_eq, same, among.contains_iff liveV]
  · rw [Bool.and_eq_false_iff, decide_eq_false_iff_not]
    refine .inl fun same => ?_
    rw [among.isLive_eq_of_root_eq same, live] at outside
    cases outside

/-- The blocks of an island of the drawing are the same, in the same order. -/
theorem blocks_eq (live : sketch.isLive u.handle = true) :
    (blocks'.filter fun block => (anchor? larger block).map (sets larger blocks' links').root =
        some ((sets larger blocks' links').root u)) =
      blocks.filter fun block => (anchor? pool block).map (sets pool blocks links).root =
        some ((sets pool blocks links).root u) := by
  refine among.woven_blocks.filter_eq (fun block given => ?_) fun block foreign => ?_
  · have own := among.own_blocks block given
    rw [anchor?, anchor?, among.relevant_eq own]
    cases anchor : (relevant pool block.unknowns).head? with
    | none => rfl
    | some v =>
      have same := among.root_eq_iff (v := u)
        (own v (mem_relevant_iff.mp (List.mem_of_head? anchor)).1)
      simpa using same
  · rw [decide_eq_false_iff_not, Option.map_eq_some_iff]
    rintro ⟨v, anchor, same⟩
    have outside := foreign v (mem_relevant_iff.mp (List.mem_of_head? anchor)).1
    rw [among.isLive_eq_of_root_eq same, live] at outside
    cases outside

variable [Scalar α] {islands others : List (Island α)} {island other : Island α}

/-- **Every island of the drawing is there among strangers**, under some number. -/
theorem exists_island (done : partition pool blocks links = .ok islands)
    (done' : partition larger blocks' links' = .ok others) (known : island ∈ islands) :
    ∃ other ∈ others, { island with index := other.index } = other := by
  obtain ⟨root, listed, rfl⟩ := exists_root done known
  obtain ⟨u, registered, contained, rfl⟩ := mem_roots_iff.mp listed
  have live := among.prolongs.own u registered
  have found : islandOn larger blocks' links' ((sets larger blocks' links').root u) ∈ others := by
    rw [eq_of_partition done']
    exact islandOn_mem (mem_roots_iff.mpr ⟨u, (among.prolongs.mem_keys_iff live).mpr registered,
      (among.contains_iff live).mpr contained, rfl⟩)
  have free : (rooted pool (sets pool blocks links) ((sets pool blocks links).root u)).filter
      larger.isFree = (rooted pool (sets pool blocks links)
        ((sets pool blocks links).root u)).filter pool.isFree :=
    List.filter_congr fun v member =>
      among.prolongs.isFree_eq (among.prolongs.own v (mem_rooted_iff.mp member).1)
  refine ⟨_, found, ?_⟩
  simp only [islandOn, islandAt, ← rooted.eq_1, among.rooted_eq live, among.blocks_eq live, free]

/-- A variable of the drawing that has an island among strangers has one by itself. -/
theorem exists_island_of_mem (done : partition pool blocks links = .ok islands)
    (done' : partition larger blocks' links' = .ok others) (known : other ∈ others)
    (inside : v ∈ other.members) (live : sketch.isLive v.handle = true) :
    ∃ island ∈ islands, v ∈ island.members := by
  obtain ⟨root, -, rfl⟩ := exists_root done' known
  obtain ⟨registered, contained, -⟩ := mem_members_islandOn.mp inside
  exact exists_island_of_contains done ((among.prolongs.mem_keys_iff live).mp registered)
    ((among.contains_iff live).mp contained)

end Among

end Partition

end PlaneSketch
