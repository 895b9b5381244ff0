import Mathlib.Data.List.Nodup
import Mathlib.Logic.Relation
import PlaneSketch.Registry

/-!
What the tables of a registry keep.

A call changes one table after the other, and may stop between two changes. Each change by itself
leaves the tables in step.

* `Change`: a variable gets the next place, a value is put behind the others, the value of a
  variable that is not bound is replaced, a variable that has a value is bound.
* `Quiet`: what all calls but one come to, changes that bind nothing.
* `bind_cases`: the ways in which binding a point can go.
* `changes_perform`: every call is a sequence of changes, also one that stops half-way.
* `InStep.change`, `Extends.change`: what is kept by a change.
* `partition`: a variable is free or bound, and not both.
-/

namespace PlaneSketch.Registry

variable {ν α : Type} {read : ν → Option α} {registry later third : Registry α} {v w : Variable}
  {c : Handle}

/-! ### Changes -/

/-- The variable has a place, and its place has a value. -/
def Filled (registry : Registry α) (v : Variable) : Prop :=
  ∃ place, registry.place? v = some place ∧ place < registry.values.length

/-- What can happen to the tables at once. -/
inductive Change : Registry α → Registry α → Prop
  | enter {registry : Registry α} {v : Variable} : registry.place? v = none →
      Change registry (registry.enter v)
  | push {registry : Registry α} (x : α) : Change registry (registry.push x)
  | write {registry : Registry α} {v : Variable} {place : Nat} (x : α) :
      registry.place? v = some place → registry.binding? v = none →
      Change registry (registry.write place x)
  | tie {registry : Registry α} {v : Variable} (c : Handle) : registry.Filled v →
      registry.binding? v = none → Change registry (registry.tie v c)

/-- One change after the other. -/
abbrev Changes : Registry α → Registry α → Prop := Relation.ReflTransGen Change

theorem place?_enter_of_ne (other : w ≠ v) : (registry.enter v).place? w = registry.place? w :=
  Assoc.find?_put_ne other _ _

theorem place?_enter_self : (registry.enter v).place? v = some registry.keys.length :=
  Assoc.find?_put_self _ _ _

theorem binding?_tie_of_ne (other : w ≠ v) : (registry.tie v c).binding? w = registry.binding? w :=
  Assoc.find?_put_ne other _ _

theorem binding?_tie_self : (registry.tie v c).binding? v = some c := Assoc.find?_put_self _ _ _

theorem length_write (registry : Registry α) (place : Nat) (x : α) :
    (registry.write place x).values.length = registry.values.length := List.length_set

/-- What has a value keeps one. -/
theorem Filled.change (filled : registry.Filled v) (change : Change registry later) :
    later.Filled v := by
  obtain ⟨place, known, inside⟩ := filled
  cases change with
  | enter fresh =>
    refine ⟨place, ?_, inside⟩
    rw [place?_enter_of_ne, known]
    rintro rfl
    rw [fresh] at known
    cases known
  | push x =>
    refine ⟨place, known, ?_⟩
    rw [push, List.length_append]
    omega
  | write x => exact ⟨place, known, (length_write registry _ x).symm ▸ inside⟩
  | tie => exact ⟨place, known, inside⟩

theorem Filled.changes (filled : registry.Filled v) (changes : Changes registry later) :
    later.Filled v := by
  induction changes with
  | refl => exact filled
  | tail _ change ih => exact ih.change change

/-! ### Tables in step -/

/-- The places are those of the variables, and what is bound has a value. -/
structure InStep (registry : Registry α) : Prop where
  distinct : registry.keys.Nodup
  place : ∀ v place, registry.place? v = some place ↔ registry.keys[place]? = some v
  once : (registry.bound.map (·.1)).Nodup
  filled : ∀ v c, registry.binding? v = some c → registry.Filled v

namespace InStep

theorem empty : (Registry.empty : Registry α).InStep where
  distinct := List.nodup_nil
  place _ _ := by simp [Registry.empty, place?, Assoc.find?]
  once := List.nodup_nil
  filled _ _ bound := by cases bound

theorem mem_keys_iff (step : registry.InStep) :
    v ∈ registry.keys ↔ ∃ place, registry.place? v = some place := by
  rw [List.mem_iff_getElem?]
  exact exists_congr fun place => (step.place v place).symm

theorem not_mem_of_place? (step : registry.InStep) (fresh : registry.place? v = none) :
    v ∉ registry.keys := by
  intro listed
  obtain ⟨place, known⟩ := step.mem_keys_iff.mp listed
  rw [fresh] at known
  cases known

theorem contains_iff (step : registry.InStep) : registry.contains v = true ↔ v ∈ registry.keys := by
  rw [step.mem_keys_iff, contains, Option.isSome_iff_exists]

/-- Two variables have different places. -/
theorem place_ne (step : registry.InStep) (other : v ≠ w) {i j : Nat}
    (first : registry.place? v = some i) (second : registry.place? w = some j) : i ≠ j := by
  rintro rfl
  have same := ((step.place v i).mp first).symm.trans ((step.place w i).mp second)
  exact other (Option.some.inj same)

theorem place_enter (step : registry.InStep) (fresh : registry.place? v = none) (w : Variable)
    (place : Nat) :
    (registry.enter v).place? w = some place ↔ (registry.enter v).keys[place]? = some w := by
  have absent := step.not_mem_of_place? fresh
  by_cases same : w = v
  · subst same
    rw [place?_enter_self, Option.some_inj]
    constructor
    · rintro rfl
      exact List.getElem?_concat_length
    · intro found
      by_contra other
      obtain ⟨inside, -⟩ := List.getElem?_eq_some_iff.mp found
      rw [enter, List.length_append, List.length_singleton] at inside
      rw [enter, List.getElem?_append_left (by omega)] at found
      exact absent (List.mem_of_getElem? found)
  · rw [place?_enter_of_ne same, step.place]
    by_cases inside : place < registry.keys.length
    · rw [enter, List.getElem?_append_left inside]
    · rw [enter, List.getElem?_append_right (by omega), List.getElem?_eq_none (by omega)]
      simp [List.getElem?_singleton, Ne.symm same]

/-- **Every change leaves the tables in step.** -/
theorem change (step : registry.InStep) (change : Change registry later) : later.InStep := by
  have kept : ∀ v, registry.Filled v → later.Filled v := fun v filled => filled.change change
  cases change with
  | @enter v fresh =>
    refine ⟨?_, step.place_enter fresh, step.once, fun w c bound => kept w (step.filled w c bound)⟩
    have absent := step.not_mem_of_place? fresh
    refine List.nodup_append.mpr ⟨step.distinct, List.nodup_singleton v, ?_⟩
    intro w listed u new
    obtain rfl := List.mem_singleton.mp new
    rintro rfl
    exact absent listed
  | push x =>
    exact ⟨step.distinct, step.place, step.once, fun w c bound => kept w (step.filled w c bound)⟩
  | write x =>
    exact ⟨step.distinct, step.place, step.once, fun w c bound => kept w (step.filled w c bound)⟩
  | @tie v d filled unbound =>
    refine ⟨step.distinct, step.place, Assoc.nodup_put step.once v d, fun w c bound => kept w ?_⟩
    by_cases same : w = v
    · rwa [same]
    · rw [binding?_tie_of_ne same] at bound
      exact step.filled w c bound

theorem changes (step : registry.InStep) (changes : Changes registry later) : later.InStep := by
  induction changes with
  | refl => exact step
  | tail _ change ih => exact ih.change change

/-- The index of a variable is its place among the others. -/
theorem index_eq_ok_iff (step : registry.InStep) (v : Variable) (i : Nat) :
    registry.index v = .ok i ↔ registry.keys[i]? = some v := by
  rw [← step.place, index]
  cases registry.place? v with
  | none => simp
  | some place => simp

theorem exists_value (step : registry.InStep) (bound : registry.binding? v = some c) :
    ∃ x, registry.value v = .ok x := by
  obtain ⟨place, known, inside⟩ := step.filled v c bound
  refine ⟨registry.values[place], ?_⟩
  simp [value, index, known, List.getElem?_eq_getElem inside, Bind.bind, Except.bind, pure,
    Except.pure]

theorem mem_bound_iff (registry : Registry α) :
    v ∈ registry.bound.map (·.1) ↔ (registry.binding? v).isSome = true := by
  rw [← not_iff_not, ← Assoc.find?_eq_none_iff, binding?, Option.not_isSome_iff_eq_none]

/-- **A registered variable is free or bound, and not both.** -/
theorem partition (step : registry.InStep) :
    (registry.freeKeys ++ registry.bound.map (·.1)).Perm registry.keys := by
  have same : (registry.bound.map (·.1)).Perm
      (registry.keys.filter fun v => !(registry.binding? v).isNone) := by
    apply (List.perm_ext_iff_of_nodup step.once (step.distinct.filter _)).mpr
    intro v
    rw [mem_bound_iff, List.mem_filter, Option.not_isNone, iff_and_self, Option.isSome_iff_exists]
    rintro ⟨c, bound⟩
    obtain ⟨place, known, -⟩ := step.filled v c bound
    exact step.mem_keys_iff.mpr ⟨place, known⟩
  exact (same.append_left _).trans (List.filter_append_perm _ _)

end InStep

/-! ### What stays -/

/-- Variables stay where they are, and what is bound keeps its value and its constraint. -/
structure Extends (registry later : Registry α) : Prop where
  keys : registry.keys <+: later.keys
  bound : ∀ v c, registry.binding? v = some c →
    later.binding? v = some c ∧ later.value v = registry.value v

namespace Extends

theorem refl (registry : Registry α) : Extends registry registry :=
  ⟨List.prefix_rfl, fun _ _ bound => ⟨bound, rfl⟩⟩

theorem trans (first : Extends registry later) (second : Extends later third) :
    Extends registry third where
  keys := first.keys.trans second.keys
  bound v c bound := by
    obtain ⟨bound', same⟩ := first.bound v c bound
    obtain ⟨bound'', same'⟩ := second.bound v c bound'
    exact ⟨bound'', same'.trans same⟩

/-- A variable whose place and whose value are what they were is read alike. -/
theorem value_eq (place : later.place? v = registry.place? v)
    (values : ∀ i, registry.place? v = some i → later.values[i]? = registry.values[i]?) :
    later.value v = registry.value v := by
  unfold value index
  rw [place]
  cases known : registry.place? v with
  | none => rfl
  | some i =>
    simp only [Bind.bind, Except.bind]
    rw [values i known]

/-- **Every change leaves what is bound as it is.** -/
theorem change (step : registry.InStep) (change : Change registry later) :
    Extends registry later := by
  cases change with
  | @enter v fresh =>
    refine ⟨List.prefix_append _ _, fun w c bound => ⟨bound, ?_⟩⟩
    obtain ⟨place, known, -⟩ := step.filled w c bound
    refine value_eq (place?_enter_of_ne ?_) fun _ _ => rfl
    rintro rfl
    rw [fresh] at known
    cases known
  | push x =>
    refine ⟨List.prefix_rfl, fun w c bound => ⟨bound, value_eq rfl fun i known => ?_⟩⟩
    obtain ⟨place, known', inside⟩ := step.filled w c bound
    obtain rfl : place = i := Option.some.inj (known'.symm.trans known)
    exact List.getElem?_append_left inside
  | @write v place x known unbound =>
    refine ⟨List.prefix_rfl, fun w c bound => ⟨bound, value_eq rfl fun i known' => ?_⟩⟩
    have other : v ≠ w := by
      rintro rfl
      rw [unbound] at bound
      cases bound
    exact List.getElem?_set_ne (step.place_ne other known known')
  | @tie v d filled unbound =>
    refine ⟨List.prefix_rfl, fun w c bound => ⟨?_, rfl⟩⟩
    rw [binding?_tie_of_ne, bound]
    rintro rfl
    rw [unbound] at bound
    cases bound

theorem changes (step : registry.InStep) (changes : Changes registry later) :
    Extends registry later := by
  induction changes with
  | refl => exact .refl registry
  | tail before change ih => exact ih.trans (.change (step.changes before) change)

end Extends

/-! ### Calls as changes -/

theorem place?_of_not_contains (fresh : registry.contains v = false) :
    registry.place? v = none := by
  simpa [contains] using fresh

/-- Changes that bind nothing. -/
structure Quiet (registry later : Registry α) : Prop where
  changes : Changes registry later
  bound : later.bound = registry.bound

namespace Quiet

theorem refl (registry : Registry α) : Quiet registry registry := ⟨.refl, rfl⟩

theorem trans (first : Quiet registry later) (second : Quiet later third) :
    Quiet registry third :=
  ⟨first.changes.trans second.changes, second.bound.trans first.bound⟩

theorem binding?_eq (quiet : Quiet registry later) (v : Variable) :
    later.binding? v = registry.binding? v := by
  rw [binding?, quiet.bound, binding?]

end Quiet

theorem quiet_register (read : ν → Option α) (registry : Registry α) (v : Variable) (number : ν) :
    Quiet registry (registry.register read v number).1 := by
  unfold register
  split
  · exact .refl registry
  · rename_i fresh
    have entered : Change registry (registry.enter v) :=
      .enter (place?_of_not_contains (Bool.eq_false_iff.mpr fresh))
    dsimp only
    split
    · exact ⟨(Relation.ReflTransGen.single entered).tail (.push _), rfl⟩
    · exact ⟨.single entered, rfl⟩

/-- **When a number is stored**, it is read, and written where there was a value. -/
theorem store_eq_ok_iff {number : ν} : registry.store read v number = .ok later ↔
    ∃ x place, read number = some x ∧ registry.place? v = some place ∧
      place < registry.values.length ∧ later = registry.write place x := by
  unfold store
  cases read number with
  | none => simp
  | some x =>
    cases registry.place? v with
    | none => simp
    | some place =>
      dsimp only
      split
      · rename_i inside
        simp [inside, eq_comm]
      · rename_i outside
        simp [outside]

theorem quiet_store {number : ν} (unbound : registry.binding? v = none)
    (stored : registry.store read v number = .ok later) : Quiet registry later := by
  obtain ⟨x, place, -, known, -, rfl⟩ := store_eq_ok_iff.mp stored
  exact ⟨.single (.write x known unbound), rfl⟩

theorem quiet_setValue (read : ν → Option α) (registry : Registry α) (v : Variable) (number : ν) :
    Quiet registry (registry.setValue read v number).1 := by
  unfold setValue
  split
  · exact .refl registry
  · rename_i unbound
    split
    · exact .refl registry
    · rename_i stored
      exact quiet_store unbound stored

theorem quiet_seedFrom (read : ν → Option α) (count : Nat) (registry : Registry α)
    (numbers : List (Variable × ν)) :
    Quiet registry (registry.seedFrom read count numbers).1 := by
  induction numbers generalizing count registry with
  | nil => exact .refl registry
  | cons pair numbers ih =>
    obtain ⟨v, number⟩ := pair
    unfold seedFrom
    split
    · rename_i free
      have unbound : registry.binding? v = none := by
        simpa using (Bool.and_eq_true_iff.mp free).2
      split
      · exact .refl registry
      · rename_i stored
        exact (quiet_store unbound stored).trans (ih _ _)
    · exact ih count registry

theorem quiet_scatter (read : ν → Option α) (registry : Registry α) (unknowns : List Variable)
    (numbers : List ν) : Quiet registry (registry.scatter read unknowns numbers).1 := by
  induction unknowns generalizing registry numbers with
  | nil => exact .refl registry
  | cons v unknowns ih =>
    cases numbers with
    | nil => exact .refl registry
    | cons number numbers =>
      have first := quiet_setValue read registry v number
      unfold scatter
      split
      · rename_i failed
        rwa [failed] at first
      · rename_i written done
        rw [done] at first
        exact first.trans (ih written numbers)

/-- **When one variable is bound**, its number is stored first. -/
theorem bindOne_eq_ok_iff {number : ν} : registry.bindOne read v number c = .ok later ↔
    ∃ stored, registry.store read v number = .ok stored ∧ later = stored.tie v c := by
  unfold bindOne
  cases registry.store read v number with
  | error fault => simp
  | ok stored => simp [eq_comm]

theorem changes_bindOne {number : ν} (unbound : registry.binding? v = none)
    (bound : registry.bindOne read v number c = .ok later) : Changes registry later := by
  obtain ⟨stored, found, rfl⟩ := bindOne_eq_ok_iff.mp bound
  obtain ⟨x, place, -, known, inside, rfl⟩ := store_eq_ok_iff.mp found
  refine (quiet_store unbound found).changes.tail (.tie c ⟨place, known, ?_⟩ unbound)
  rwa [length_write]

/-- Binding one variable leaves the others. -/
theorem binding?_of_bindOne {number : ν} (bound : registry.bindOne read v number c = .ok later) :
    later.binding? v = some c ∧ ∀ w, w ≠ v → later.binding? w = registry.binding? w := by
  obtain ⟨stored, found, rfl⟩ := bindOne_eq_ok_iff.mp bound
  obtain ⟨x, place, -, -, -, rfl⟩ := store_eq_ok_iff.mp found
  exact ⟨binding?_tie_self, fun w other => binding?_tie_of_ne other⟩

/-- **The ways in which binding a point can go**: nothing happens, when it is bound or its first
number cannot be stored; it stops half-way, when its second number cannot be; or it is done. -/
theorem bind_cases (read : ν → Option α) (registry : Registry α) (point : Handle)
    (position : Vec2 ν) (c : Handle) :
    (registry.bind read point position c).1 = registry ∧
        (registry.bind read point position c).2 ≠ .ok true ∨
      registry.binding? ⟨point, .x⟩ = none ∧ registry.binding? ⟨point, .y⟩ = none ∧
        ∃ half, registry.bindOne read ⟨point, .x⟩ position.x c = .ok half ∧
          ((∃ fault, half.bindOne read ⟨point, .y⟩ position.y c = .error fault ∧
              registry.bind read point position c = (half, .error fault)) ∨
            ∃ whole, half.bindOne read ⟨point, .y⟩ position.y c = .ok whole ∧
              registry.bind read point position c = (whole, .ok true)) := by
  unfold bind
  split
  · exact .inl ⟨rfl, by simp⟩
  · rename_i loose
    simp only [Bool.or_eq_true, not_or, Option.not_isSome_iff_eq_none] at loose
    cases first : registry.bindOne read ⟨point, .x⟩ position.x c with
    | error fault => exact .inl ⟨rfl, by simp⟩
    | ok half =>
      refine .inr ⟨loose.1, loose.2, half, rfl, ?_⟩
      dsimp only
      cases half.bindOne read ⟨point, .y⟩ position.y c with
      | error fault => exact .inl ⟨fault, rfl, rfl⟩
      | ok whole => exact .inr ⟨whole, rfl, rfl⟩

theorem changes_bind (registry : Registry α) (point : Handle) (position : Vec2 ν) (c : Handle) :
    Changes registry (registry.bind read point position c).1 := by
  rcases bind_cases read registry point position c with
    ⟨same, -⟩ | ⟨looseX, looseY, half, first, ⟨fault, -, stopped⟩ | ⟨whole, second, done⟩⟩
  · rw [same]
  · rw [stopped]
    exact changes_bindOne looseX first
  · rw [done]
    refine (changes_bindOne looseX first).trans (changes_bindOne ?_ second)
    rw [(binding?_of_bindOne first).2 _ (by simp), looseY]

/-- **Every call is a sequence of changes**, whether it is done or stops half-way. -/
theorem changes_perform (registry : Registry α) (call : Call ν) :
    Changes registry (registry.perform read call).1 := by
  cases call with
  | register v number => exact (quiet_register read registry v number).changes
  | setValue v number => exact (quiet_setValue read registry v number).changes
  | seed numbers => exact (quiet_seedFrom read 0 registry numbers).changes
  | bind point position c => exact changes_bind registry point position c
  | scatter unknowns numbers => exact (quiet_scatter read registry unknowns numbers).changes

end PlaneSketch.Registry
