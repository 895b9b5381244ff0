import Mathlib.Data.List.Nodup
import PlaneSketch.Equations
import PlaneSketch.Pool

/-!
What the operations of a pool leave as it was.

A pool is read through `entry?`. `SameShape` relates two pools with the same variables and the same
bindings: all that says which variables are free. Giving values keeps the shape, and so a pool may
be seeded or scattered into without anything being bound or set free.
-/

namespace PlaneSketch.Pool

variable {α : Type}

/-! ### Entries, bindings, free variables -/

theorem entry?_eq_some_iff {pool : Pool α} {v : Variable} {entry : Entry α} :
    pool.entry? v = some entry ↔ entry ∈ pool.entries ∧ entry.key = v := by
  constructor
  · intro found
    exact ⟨List.mem_of_find?_eq_some found, by simpa using List.find?_some found⟩
  · rintro ⟨member, rfl⟩
    cases found : pool.entry? entry.key with
    | none =>
      have absent := List.find?_eq_none.mp found entry member
      simp at absent
    | some other =>
      have here := List.mem_of_find?_eq_some found
      have key : other.key = entry.key := by simpa using List.find?_some found
      rw [List.inj_on_of_nodup_map pool.distinct here member key]

theorem key_of_found {pool : Pool α} {v : Variable} {entry : Entry α}
    (found : pool.entry? v = some entry) : entry.key = v :=
  (entry?_eq_some_iff.mp found).2

theorem mem_keys_iff {pool : Pool α} {v : Variable} :
    v ∈ pool.keys ↔ ∃ entry, pool.entry? v = some entry := by
  simp only [keys, List.mem_map, entry?_eq_some_iff]

theorem contains_iff {pool : Pool α} {v : Variable} : pool.contains v = true ↔ v ∈ pool.keys := by
  simp [contains]

theorem nodup_keys (pool : Pool α) : pool.keys.Nodup := pool.distinct

theorem isFree_iff {pool : Pool α} {v : Variable} :
    pool.isFree v = true ↔ v ∈ pool.keys ∧ pool.binding? v = none := by
  rw [isFree, binding?, mem_keys_iff]
  cases pool.entry? v with
  | none => simp
  | some entry => simp

theorem mem_keys_of_isFree {pool : Pool α} {v : Variable} (free : pool.isFree v = true) :
    v ∈ pool.keys := (isFree_iff.mp free).1

theorem mem_freeKeys_iff {pool : Pool α} {v : Variable} :
    v ∈ pool.freeKeys ↔ pool.isFree v = true := by
  simp only [freeKeys, List.mem_map, List.mem_filter]
  rw [isFree]
  constructor
  · rintro ⟨entry, ⟨member, unbound⟩, rfl⟩
    rw [entry?_eq_some_iff.mpr ⟨member, rfl⟩]
    exact unbound
  · intro free
    cases found : pool.entry? v with
    | none => simp [found] at free
    | some entry =>
      obtain ⟨member, key⟩ := entry?_eq_some_iff.mp found
      exact ⟨entry, ⟨member, by simpa [found] using free⟩, key⟩

/-- The free variables are those registered variables that are free, in the same order. -/
theorem freeKeys_eq (pool : Pool α) : pool.freeKeys = pool.keys.filter pool.isFree := by
  rw [freeKeys, keys, List.filter_map]
  refine congrArg (List.map _) (List.filter_congr fun entry listed => ?_)
  rw [Function.comp_apply, isFree, entry?_eq_some_iff.mpr ⟨listed, rfl⟩]

/-! ### Pools of the same shape -/

/-- The same variables in the same order, each bound by the same constraint or by none. -/
structure SameShape (pool other : Pool α) : Prop where
  keys : other.keys = pool.keys
  binding? : ∀ v, other.binding? v = pool.binding? v

namespace SameShape

variable {pool other third : Pool α}

theorem refl (pool : Pool α) : SameShape pool pool := ⟨rfl, fun _ => rfl⟩

theorem symm (same : SameShape pool other) : SameShape other pool :=
  ⟨same.keys.symm, fun v => (same.binding? v).symm⟩

theorem trans (same : SameShape pool other) (same' : SameShape other third) :
    SameShape pool third :=
  ⟨same'.keys.trans same.keys, fun v => (same'.binding? v).trans (same.binding? v)⟩

theorem isFree (same : SameShape pool other) (v : Variable) : other.isFree v = pool.isFree v := by
  rw [Bool.eq_iff_iff, isFree_iff, isFree_iff, same.keys, same.binding?]

theorem contains (same : SameShape pool other) (v : Variable) :
    other.contains v = pool.contains v := by
  rw [Pool.contains, Pool.contains, same.keys]

end SameShape

/-! ### Changing one variable -/

theorem entries_modify (pool : Pool α) (v : Variable)
    (change : α × Option Handle → α × Option Handle) :
    (pool.modify v change).entries = pool.entries.map fun entry =>
      if entry.key = v then
        ⟨entry.key, (change (entry.value, entry.binding)).1,
          (change (entry.value, entry.binding)).2⟩
      else entry := rfl

theorem entry?_modify (pool : Pool α) (v w : Variable)
    (change : α × Option Handle → α × Option Handle) :
    Pool.entry? (pool.modify v change) w = (pool.entry? w).map fun entry =>
      if w = v then
        ⟨w, (change (entry.value, entry.binding)).1, (change (entry.value, entry.binding)).2⟩
      else entry := by
  unfold entry?
  rw [entries_modify, List.find?_map]
  have same : ((fun entry : Entry α => decide (entry.key = w)) ∘ fun entry =>
      if entry.key = v then
        ⟨entry.key, (change (entry.value, entry.binding)).1,
          (change (entry.value, entry.binding)).2⟩
      else entry) = fun entry => decide (entry.key = w) := by
    funext entry
    simp only [Function.comp_apply]
    split <;> rfl
  rw [same]
  cases found : pool.entries.find? fun entry => decide (entry.key = w) with
  | none => rfl
  | some entry =>
    have key : entry.key = w := by simpa using List.find?_some found
    simp [key]

@[simp] theorem keys_modify (pool : Pool α) (v : Variable)
    (change : α × Option Handle → α × Option Handle) : (pool.modify v change).keys = pool.keys := by
  unfold keys modify
  rw [List.map_map]
  apply List.map_congr_left
  intro entry _
  simp only [Function.comp_apply]
  split <;> rfl

theorem entry?_write (pool : Pool α) (v w : Variable) (value : α) :
    Pool.entry? (pool.write v value) w = (pool.entry? w).map fun entry =>
      if w = v then { entry with value } else entry := by
  rw [write, entry?_modify]
  cases found : pool.entry? w with
  | none => rfl
  | some entry =>
    obtain rfl := key_of_found found
    rfl

theorem sameShape_write (pool : Pool α) (v : Variable) (value : α) :
    SameShape pool (pool.write v value) where
  keys := keys_modify _ _ _
  binding? w := by
    rw [binding?, entry?_write, binding?]
    cases pool.entry? w with
    | none => rfl
    | some entry => simp only [Option.map_some, Option.bind_some]; split <;> rfl

/-! ### Giving values to several variables -/

/-- Seeding starts with the first pair, and counts apart. -/
theorem seed_cons (pool : Pool α) (pair : Variable × α) (values : List (Variable × α)) :
    (pool.seed (pair :: values)).1 =
      ((if pool.isFree pair.1 then pool.write pair.1 pair.2 else pool).seed values).1 := by
  have counted : ∀ (pool : Pool α) (count : Nat), (values.foldl (fun state pair =>
      if state.1.isFree pair.1 then (state.1.write pair.1 pair.2, state.2 + 1)
      else (state.1, state.2)) (pool, count)).1 = (pool.seed values).1 := by
    unfold seed
    generalize 0 = start
    induction values generalizing start with
    | nil => exact fun _ _ => rfl
    | cons next values ih =>
      intro pool count
      simp only [List.foldl_cons]
      split
      · exact (ih start _ _).trans (ih start _ _).symm
      · exact (ih start _ _).trans (ih start _ _).symm
  unfold seed
  rw [List.foldl_cons]
  dsimp only
  split
  · exact counted _ _
  · exact counted _ _

theorem sameShape_setValue (pool : Pool α) (v : Variable) (value : α) :
    SameShape pool (pool.setValue v value).1 := by
  unfold setValue
  split
  · exact .refl pool
  · split
    · exact sameShape_write pool v value
    · exact .refl pool

theorem sameShape_scatter (pool : Pool α) (unknowns : List Variable) (values : List α) :
    SameShape pool (pool.scatter unknowns values).1 := by
  induction unknowns generalizing pool values with
  | nil => exact .refl pool
  | cons v unknowns ih =>
    cases values with
    | nil => exact .refl pool
    | cons value values =>
      have first := sameShape_setValue pool v value
      unfold scatter
      split
      · rename_i failed
        rwa [failed] at first
      · rename_i written done
        rw [done] at first
        exact first.trans (ih written values)

theorem sameShape_seed (pool : Pool α) (values : List (Variable × α)) :
    SameShape pool (pool.seed values).1 := by
  induction values generalizing pool with
  | nil => exact .refl pool
  | cons pair values ih =>
    rw [seed_cons]
    split
    · exact (sameShape_write pool pair.1 pair.2).trans (ih _)
    · exact ih pool

/-- Values of variables that are not free make no difference. -/
theorem seed_filter {keep : Variable → Bool} (pool : Pool α)
    (kept : ∀ v, pool.isFree v = true → keep v = true) (values : List (Variable × α)) :
    (pool.seed (values.filter fun pair => keep pair.1)).1 = (pool.seed values).1 := by
  induction values generalizing pool with
  | nil => rfl
  | cons pair values ih =>
    rw [seed_cons, List.filter_cons]
    by_cases free : pool.isFree pair.1 = true
    · rw [if_pos (kept _ free), seed_cons, if_pos free]
      exact ih _ fun v free' => kept v ((sameShape_write pool pair.1 pair.2).isFree v ▸ free')
    · rw [if_neg free]
      split
      · rw [seed_cons, if_neg free]
        exact ih _ kept
      · exact ih _ kept

/-! ### Values -/

section Values

variable [Scalar α]

theorem valuation_of_found {pool : Pool α} {v : Variable} {entry : Entry α}
    (found : pool.entry? v = some entry) : pool.valuation v = entry.value := by
  simp [valuation, value, found]

theorem valuation_write {pool : Pool α} {v : Variable} (registered : v ∈ pool.keys)
    (value : α) (w : Variable) :
    (pool.write v value).valuation w = if w = v then value else pool.valuation w := by
  cases found : pool.entry? w with
  | none =>
    have other : w ≠ v := by
      rintro rfl
      obtain ⟨entry, present⟩ := mem_keys_iff.mp registered
      rw [found] at present
      cases present
    simp [valuation, Pool.value, entry?_write, found, other]
  | some entry =>
    simp only [valuation, Pool.value, entry?_write, found, Option.map_some]
    split <;> rfl

omit [Scalar α] in
theorem setValue_of_isFree {pool : Pool α} {v : Variable} (free : pool.isFree v = true)
    (value : α) : pool.setValue v value = (pool.write v value, .ok ()) := by
  obtain ⟨registered, unbound⟩ := isFree_iff.mp free
  rw [setValue, unbound]
  exact if_pos (contains_iff.mpr registered)

/-- **Scattering writes back exactly the values given**: the pool then shows what the equations
over these variables read, with all other variables as they were. -/
theorem valuation_scatter {pool : Pool α} {unknowns : List Variable} {values : List α}
    (free : ∀ v ∈ unknowns, pool.isFree v = true) (distinct : unknowns.Nodup)
    (lengths : values.length = unknowns.length) (blocks : List (Block α)) :
    (pool.scatter unknowns values).1.valuation =
      (Equations.mk blocks unknowns pool.valuation).valuation values := by
  induction unknowns generalizing pool values with
  | nil => rfl
  | cons v unknowns ih =>
    obtain ⟨value, values, rfl⟩ := List.exists_cons_of_length_eq_add_one lengths
    have freeV := free v List.mem_cons_self
    have registered := mem_keys_of_isFree freeV
    obtain ⟨fresh, distinct⟩ := List.nodup_cons.mp distinct
    have shape := sameShape_write pool v value
    rw [scatter, setValue_of_isFree freeV]
    simp only
    rw [ih (fun w listed => by rw [shape.isFree]; exact free w (List.mem_cons_of_mem _ listed))
      distinct (by simpa using lengths)]
    funext w
    simp only [Equations.valuation, Equations.column?, List.findIdx?_cons]
    by_cases same : w = v
    · subst same
      have later : unknowns.findIdx? (fun u => decide (u = w)) = none := by
        rw [List.findIdx?_eq_none_iff]
        intro u listed
        simpa using fun h : u = w => fresh (h ▸ listed)
      simp [later, valuation_write registered]
    · cases unknowns.findIdx? (fun u => decide (u = w)) with
      | none => simp [Ne.symm same, valuation_write registered, same]
      | some i => simp [Ne.symm same]

end Values

/-! ### Binding a point -/

/-- Is a coordinate of the point bound? -/
def isPinned (pool : Pool α) (point : Handle) : Bool :=
  (pool.binding? ⟨point, .x⟩).isSome || (pool.binding? ⟨point, .y⟩).isSome

/-- The pool with both coordinates of a point bound to a position. -/
def pin (pool : Pool α) (point : Handle) (position : Vec2 α) (constraint : Handle) : Pool α :=
  (pool.modify ⟨point, .x⟩ fun _ => (position.x, some constraint)).modify ⟨point, .y⟩
    fun _ => (position.y, some constraint)

/-- The entry of a variable once a constraint has bound its point to a position. -/
def pinnedEntry (entry : Entry α) (position : Vec2 α) (constraint : Handle) : Entry α :=
  match entry.key.component with
  | .x => { entry with value := position.x, binding := some constraint }
  | .y => { entry with value := position.y, binding := some constraint }
  | .r => entry

theorem keys_pin (pool : Pool α) (point : Handle) (position : Vec2 α) (constraint : Handle) :
    (pool.pin point position constraint).keys = pool.keys := by
  simp [pin]

theorem entry?_pin (pool : Pool α) (point : Handle) (position : Vec2 α) (constraint : Handle)
    (v : Variable) :
    Pool.entry? (pool.pin point position constraint) v = (pool.entry? v).map fun entry =>
      if v.handle = point then pinnedEntry entry position constraint else entry := by
  rw [pin, entry?_modify, entry?_modify]
  cases found : pool.entry? v with
  | none => rfl
  | some entry =>
    obtain rfl := key_of_found found
    obtain ⟨⟨h, component⟩, value, binding⟩ := entry
    by_cases same : h = point <;> cases component <;> simp [pinnedEntry, same]

theorem bindOne_of_mem {pool : Pool α} {v : Variable} (registered : v ∈ pool.keys) (value : α)
    (constraint : Handle) :
    pool.bindOne v value constraint = (pool.modify v fun _ => (value, some constraint), .ok ()) :=
  if_pos (contains_iff.mpr registered)

theorem bindOne_of_not_mem {pool : Pool α} {v : Variable} (missing : v ∉ pool.keys) (value : α)
    (constraint : Handle) : pool.bindOne v value constraint = (pool, .error (.unknownVariable v)) :=
  if_neg (mt contains_iff.mp missing)

/-- **The three ways in which binding a point can go**: a bound point stays as it is, a registered
one is bound, and else a coordinate is missing. -/
theorem bind_cases (pool : Pool α) (point : Handle) (position : Vec2 α) (constraint : Handle) :
    (pool.isPinned point = true ∧ pool.bind point position constraint = (pool, .ok false)) ∨
    (pool.isPinned point = false ∧ ⟨point, .x⟩ ∈ pool.keys ∧ ⟨point, .y⟩ ∈ pool.keys ∧
      pool.bind point position constraint = (pool.pin point position constraint, .ok true)) ∨
    (pool.isPinned point = false ∧ (⟨point, .x⟩ ∉ pool.keys ∨ ⟨point, .y⟩ ∉ pool.keys) ∧
      ∃ failure, (pool.bind point position constraint).2 = .error failure) := by
  unfold bind
  rw [← isPinned.eq_1]
  cases pinned : pool.isPinned point with
  | true => exact .inl ⟨rfl, rfl⟩
  | false =>
    refine .inr ?_
    by_cases hasX : (⟨point, .x⟩ : Variable) ∈ pool.keys
    · rw [bindOne_of_mem hasX]
      dsimp only
      by_cases hasY : (⟨point, .y⟩ : Variable) ∈ pool.keys
      · rw [bindOne_of_mem (by rwa [keys_modify])]
        exact .inl ⟨rfl, hasX, hasY, rfl⟩
      · rw [bindOne_of_not_mem (by rwa [keys_modify])]
        exact .inr ⟨rfl, .inr hasY, _, rfl⟩
    · rw [bindOne_of_not_mem hasX]
      exact .inr ⟨rfl, .inl hasX, _, rfl⟩

/-! ### The pool of a drawing -/

theorem mem_keys_add {pool : Pool α} {v w : Variable} {value : α} :
    w ∈ (pool.add v value).keys ↔ w ∈ pool.keys ∨ w = v := by
  unfold add
  split
  · rename_i present
    constructor
    · exact .inl
    · rintro (old | rfl)
      · exact old
      · exact present
  · simp [keys]

theorem binding?_add (pool : Pool α) (v w : Variable) (value : α) :
    (pool.add v value).binding? w = pool.binding? w := by
  unfold add
  split
  · rfl
  · rename_i fresh
    simp only [binding?, entry?, List.find?_append]
    cases found : pool.entries.find? fun entry => decide (entry.key = w) with
    | some entry => simp
    | none =>
      by_cases same : v = w
      · simp [same]
      · simp [same]

theorem ofSketch_eq (sketch : Sketch α) : ofSketch sketch =
    (sketch.features.items.flatMap fun item => unknownsOf item.1 item.2).foldl
      (fun pool pair => pool.add pair.1 pair.2) empty := rfl

/-- A variable of the pool of a drawing is a component that the kind of a live feature has. -/
theorem mem_keys_ofSketch {sketch : Sketch α} {v : Variable} :
    v ∈ (ofSketch sketch).keys ↔
      ∃ feature, sketch.feature? v.handle = some feature ∧
        v.component ∈ feature.kind.components := by
  have fold : ∀ (pairs : List (Variable × α)) (pool : Pool α),
      v ∈ (pairs.foldl (fun pool pair => pool.add pair.1 pair.2) pool).keys ↔
        v ∈ pool.keys ∨ ∃ value, (v, value) ∈ pairs := by
    intro pairs
    induction pairs with
    | nil => simp
    | cons pair pairs ih =>
      intro pool
      rw [List.foldl_cons, ih, mem_keys_add]
      simp only [List.mem_cons, or_assoc, exists_or]
      simp [Prod.ext_iff]
  rw [ofSketch_eq, fold]
  simp only [empty, keys, List.map_nil, List.not_mem_nil, false_or, List.mem_flatMap, Prod.exists,
    unknownsOf, List.mem_map, Prod.mk.injEq, Arena.mem_items_iff, Sketch.feature?]
  constructor
  · rintro ⟨value, h, feature, found, component, listed, rfl, rfl⟩
    exact ⟨feature, found, listed⟩
  · rintro ⟨feature, found, listed⟩
    exact ⟨_, v.handle, feature, found, v.component, listed, rfl, rfl⟩

/-- Nothing is bound in the pool of a drawing. -/
theorem binding?_ofSketch (sketch : Sketch α) (v : Variable) :
    (ofSketch sketch).binding? v = none := by
  have fold : ∀ (pairs : List (Variable × α)) (pool : Pool α),
      (pairs.foldl (fun pool pair => pool.add pair.1 pair.2) pool).binding? v =
        pool.binding? v := by
    intro pairs
    induction pairs with
    | nil => exact fun _ => rfl
    | cons pair pairs ih => exact fun pool => (ih _).trans (binding?_add pool _ _ _)
  rw [ofSketch_eq, fold]
  rfl

theorem unbound_of_sameShape {sketch : Sketch α} {pool : Pool α}
    (same : SameShape (ofSketch sketch) pool) (v : Variable) : pool.binding? v = none :=
  (same.binding? v).trans (binding?_ofSketch sketch v)

end PlaneSketch.Pool
