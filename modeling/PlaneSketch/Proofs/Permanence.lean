import Mathlib
import PlaneSketch.Number
import PlaneSketch.Proofs.Arena
import PlaneSketch.Proofs.Registry
import PlaneSketch.Sketch.Lookup

/-!
What a registry keeps, whatever is asked of it.

Every call adds variables behind the others, or changes variables that were not bound. A call that
stops half-way has done no more than that, but it may have done less than is wanted: a point is
bound one coordinate after the other, and stays bound in the first one alone when the second number
cannot be read.

* `changes_run`: any number of calls is a sequence of changes.
* `Paired.perform`, `Paired.run`: the coordinates of a point are bound together or not at all, or a
  call that stopped half-way tore them apart.
* `lasts_run`: what holds of every registry that was made for a drawing, after any calls.
* `exists_torn`: a whole number can be too large to be read.
-/

namespace PlaneSketch.Registry

variable {ν α : Type} {read : ν → Option α} {registry later : Registry α} {v w : Variable}
  {c : Handle}

/-! ### Several calls -/

/-- The registry that several calls leave. -/
def run (read : ν → Option α) (registry : Registry α) (calls : List (Call ν)) : Registry α :=
  calls.foldl (fun registry call => (registry.perform read call).1) registry

/-- **Any number of calls is a sequence of changes.** -/
theorem changes_run (registry : Registry α) (calls : List (Call ν)) :
    Changes registry (registry.run read calls) := by
  induction calls generalizing registry with
  | nil => exact .refl
  | cons call calls ih => exact (changes_perform registry call).trans (ih _)

/-! ### Binding a point -/

/-- Binding a point leaves the variables of other features as they are. -/
theorem binding?_bind_of_ne {point : Handle} (other : v.handle ≠ point) (position : Vec2 ν)
    (c : Handle) : (registry.bind read point position c).1.binding? v = registry.binding? v := by
  have apart : ∀ component, v ≠ ⟨point, component⟩ := by
    rintro component rfl
    exact other rfl
  rcases bind_cases read registry point position c with
    ⟨same, -⟩ | ⟨-, -, half, first, ⟨fault, -, stopped⟩ | ⟨whole, second, done⟩⟩
  · rw [same]
  · rw [stopped]
    exact (binding?_of_bindOne first).2 v (apart .x)
  · rw [done]
    exact ((binding?_of_bindOne second).2 v (apart .y)).trans
      ((binding?_of_bindOne first).2 v (apart .x))

/-- A binding that answers false changes nothing. -/
theorem bind_of_refused {point : Handle} {position : Vec2 ν}
    (refused : (registry.bind read point position c).2 = .ok false) :
    (registry.bind read point position c).1 = registry := by
  rcases bind_cases read registry point position c with
    ⟨same, -⟩ | ⟨-, -, half, -, ⟨fault, -, stopped⟩ | ⟨whole, -, done⟩⟩
  · exact same
  · rw [stopped] at refused
    cases refused
  · rw [done] at refused
    cases refused

/-! ### The coordinates of a point -/

/-- The coordinates of a point after some calls: both are free, or both are bound by one constraint,
or only the first is bound, by one of the calls, whose second number could not be read. -/
inductive Paired (read : ν → Option α) (made : List (Call ν)) (registry : Registry α)
    (h : Handle) : Prop
  | free : registry.binding? ⟨h, .x⟩ = none → registry.binding? ⟨h, .y⟩ = none →
      Paired read made registry h
  | bound {c : Handle} : registry.binding? ⟨h, .x⟩ = some c → registry.binding? ⟨h, .y⟩ = some c →
      Paired read made registry h
  | torn {c : Handle} {position : Vec2 ν} : registry.binding? ⟨h, .x⟩ = some c →
      registry.binding? ⟨h, .y⟩ = none → .bind h position c ∈ made →
      (read position.x).isSome = true → read position.y = none → Paired read made registry h

namespace Paired

variable {made more : List (Call ν)} {h : Handle}

/-- More calls that leave the bindings of a point leave it paired. -/
theorem mono (paired : Paired read made registry h) (fewer : made ⊆ more)
    (same : ∀ component, later.binding? ⟨h, component⟩ = registry.binding? ⟨h, component⟩) :
    Paired read more later h := by
  cases paired with
  | free x y => exact .free ((same .x).trans x) ((same .y).trans y)
  | bound x y => exact .bound ((same .x).trans x) ((same .y).trans y)
  | torn x y listed first second =>
    exact .torn ((same .x).trans x) ((same .y).trans y) (fewer listed) first second

/-- A call that binds the point itself pairs it, or tears it apart where its second number cannot be
read. -/
theorem bind (paired : Paired read made registry h) (filled : registry.Filled ⟨h, .y⟩)
    (position : Vec2 ν) (c : Handle) :
    Paired read (made ++ [.bind h position c]) (registry.bind read h position c).1 h := by
  rcases bind_cases read registry h position c with
    ⟨same, -⟩ | ⟨looseX, looseY, half, first, ⟨fault, second, stopped⟩ | ⟨whole, second, done⟩⟩
  · rw [same]
    exact paired.mono (List.subset_append_left _ _) fun _ => rfl
  · rw [stopped]
    obtain ⟨boundX, others⟩ := binding?_of_bindOne first
    have free := (others ⟨h, .y⟩ (by simp)).trans looseY
    refine .torn boundX free (List.mem_append_right _ List.mem_cons_self) ?_ ?_
    · obtain ⟨stored, found, -⟩ := bindOne_eq_ok_iff.mp first
      obtain ⟨x, -, known, -⟩ := store_eq_ok_iff.mp found
      rw [known]
      rfl
    · -- the second coordinate has a place with a value, so that only its number can be at fault
      cases known : read position.y with
      | none => rfl
      | some y =>
        obtain ⟨place, placed, inside⟩ := filled.changes (changes_bindOne looseX first)
        have stored := store_eq_ok_iff.mpr ⟨y, place, known, placed, inside, rfl⟩
        rw [bindOne, stored] at second
        cases second
  · rw [done]
    obtain ⟨boundY, others⟩ := binding?_of_bindOne second
    exact .bound ((others ⟨h, .x⟩ (by simp)).trans (binding?_of_bindOne first).1) boundY

/-- **Every call leaves a point paired**, or tears it apart. -/
theorem perform (paired : Paired read made registry h) (filled : registry.Filled ⟨h, .y⟩)
    (call : Call ν) : Paired read (made ++ [call]) (registry.perform read call).1 h := by
  have fewer : made ⊆ made ++ [call] := List.subset_append_left _ _
  have still : Quiet registry (registry.perform read call).1 →
      Paired read (made ++ [call]) (registry.perform read call).1 h := by
    intro quiet
    exact paired.mono fewer fun component => quiet.binding?_eq ⟨h, component⟩
  cases call with
  | register v number => exact still (quiet_register read registry v number)
  | setValue v number => exact still (quiet_setValue read registry v number)
  | seed numbers => exact still (quiet_seedFrom read 0 registry numbers)
  | bind point position c =>
    by_cases same : h = point
    · subst same
      exact paired.bind filled position c
    · exact paired.mono fewer fun component => binding?_bind_of_ne same position c
  | scatter unknowns numbers => exact still (quiet_scatter read registry unknowns numbers)

theorem run (paired : Paired read made registry h) (filled : registry.Filled ⟨h, .y⟩)
    (calls : List (Call ν)) : Paired read (made ++ calls) (registry.run read calls) h := by
  induction calls generalizing made registry with
  | nil => rwa [List.append_nil]
  | cons call calls ih =>
    rw [List.append_cons]
    exact ih (paired.perform filled call) (filled.changes (changes_perform registry call))

end Paired

/-! ### The registry of a drawing -/

/-- **Enrolling variables** leaves the tables in step, with a value for every variable. -/
theorem InStep.enrol {numbers : List (Variable × ν)} (step : registry.InStep)
    (full : registry.values.length = registry.keys.length)
    (enrolled : registry.enrol read numbers = .ok later) :
    later.InStep ∧ later.values.length = later.keys.length ∧ later.bound = registry.bound ∧
      later.keys = registry.keys ++ numbers.map (·.1) := by
  induction numbers generalizing registry with
  | nil =>
    cases enrolled
    exact ⟨step, full, rfl, (List.append_nil _).symm⟩
  | cons pair numbers ih =>
    obtain ⟨v, number⟩ := pair
    rw [Registry.enrol] at enrolled
    cases known : read number with
    | none =>
      rw [known] at enrolled
      cases enrolled
    | some x =>
      rw [known] at enrolled
      dsimp only [register] at enrolled
      split at enrolled
      · cases enrolled
      · rename_i registered place answered
        split at answered
        · cases answered
        · cases answered
          rename_i fresh
          have entered : (registry.enter v).InStep :=
            step.change (.enter (place?_of_not_contains (Bool.eq_false_iff.mpr fresh)))
          obtain ⟨step', full', bound', keys'⟩ := ih (entered.change (.push x))
            (by simp [enter, push, full]) enrolled
          refine ⟨step', full', bound', keys'.trans ?_⟩
          rw [List.map_cons, List.append_cons]
          rfl

section Drawing

variable {sketch : Sketch ν} {start : Registry α}

/-- The registry of a drawing is in step, every variable has a value, and none is bound. -/
theorem step_of_ofSketch (made : ofSketch read sketch = .ok start) :
    start.InStep ∧ start.values.length = start.keys.length ∧ start.bound = [] ∧
      start.keys = (sketch.features.items.flatMap fun item =>
        Pool.unknownsOf item.1 item.2).map (·.1) := by
  have enrolled : empty.enrol read (sketch.features.items.flatMap fun item =>
      Pool.unknownsOf item.1 item.2) = .ok start := made
  exact InStep.empty.enrol rfl enrolled

/-- Each component that the kind of a live feature has is registered, with a value. -/
theorem filled_of_ofSketch (made : ofSketch read sketch = .ok start) {h : Handle}
    {feature : Feature ν} (found : sketch.feature? h = some feature) {component : Component}
    (listed : component ∈ feature.kind.components) : start.Filled ⟨h, component⟩ := by
  obtain ⟨step, full, -, keys⟩ := step_of_ofSketch made
  have known : ⟨h, component⟩ ∈ start.keys := by
    rw [keys]
    refine List.mem_map.mpr ⟨(_, feature.value component), ?_, rfl⟩
    refine List.mem_flatMap.mpr ⟨(h, feature), Arena.mem_items_iff.mpr found, ?_⟩
    exact List.mem_map.mpr ⟨component, listed, rfl⟩
  obtain ⟨place, placed⟩ := step.mem_keys_iff.mp known
  obtain ⟨inside, -⟩ := List.getElem?_eq_some_iff.mp ((step.place _ place).mp placed)
  exact ⟨place, placed, full ▸ inside⟩

/-- Nothing is bound in the registry of a drawing. -/
theorem binding?_of_ofSketch (made : ofSketch read sketch = .ok start) (v : Variable) :
    start.binding? v = none := by
  obtain ⟨-, -, unbound, -⟩ := step_of_ofSketch made
  rw [binding?, unbound]
  rfl

/-- What a registry made for a drawing is like after some calls, and what becomes of it. -/
structure Lasts (read : ν → Option α) (sketch : Sketch ν) (made : List (Call ν))
    (registry : Registry α) : Prop where
  distinct : registry.keys.Nodup
  /-- the index of a variable is its place among the others -/
  index : ∀ v i, registry.index v = .ok i ↔ registry.keys[i]? = some v
  /-- a registered variable is free or bound, and not both -/
  partition : (registry.freeKeys ++ registry.bound.map (·.1)).Perm registry.keys
  /-- what is bound has a value -/
  value : ∀ v c, registry.binding? v = some c → ∃ x, registry.value v = .ok x
  /-- whatever is asked of it then, no variable moves, and none that is bound changes -/
  stays : ∀ calls, Extends registry (registry.run read calls)
  /-- the coordinates of a point are free, or bound by one constraint, or torn apart -/
  paired : ∀ h feature, sketch.feature? h = some feature → feature.kind = .point →
    Paired read made registry h
  /-- a binding that answers false changes nothing; seeding and scattering bind nothing -/
  refused : ∀ point position c, (registry.bind read point position c).2 = .ok false →
    (registry.bind read point position c).1 = registry
  seed : ∀ numbers, (registry.seed read numbers).1.bound = registry.bound
  scatter : ∀ unknowns numbers,
    (registry.scatter read unknowns numbers).1.bound = registry.bound

/-- **The registry of a drawing lasts.** Whatever was asked of it, and whether that was done or
stopped half-way, its tables are in step, its variables stand in the order in which they came, and
what is bound stays so. A point is bound as a whole, unless a call to bind it could read the first
number and not the second. -/
theorem lasts_run (made : ofSketch read sketch = .ok start) (calls : List (Call ν)) :
    (start.run read calls).Lasts read sketch calls := by
  obtain ⟨begins, -⟩ := step_of_ofSketch made
  have step : (start.run read calls).InStep := begins.changes (changes_run start calls)
  refine ⟨step.distinct, step.index_eq_ok_iff, step.partition, fun _ _ => step.exists_value,
    fun more => .changes step (changes_run _ more), ?_,
    fun _ _ _ => bind_of_refused, fun numbers => (quiet_seedFrom read 0 _ numbers).bound,
    fun unknowns numbers => (quiet_scatter read _ unknowns numbers).bound⟩
  intro h feature found kind
  have filled : start.Filled ⟨h, .y⟩ := by
    apply filled_of_ofSketch made found
    rw [kind]
    exact List.mem_cons_of_mem _ List.mem_cons_self
  have loose : Paired read [] start h :=
    .free (binding?_of_ofSketch made _) (binding?_of_ofSketch made _)
  exact loose.run filled calls

end Drawing

/-! ### A number too large to be read -/

namespace Torn

/-- A point. -/
def sketch : Sketch Number where
  features := ⟨[⟨some ⟨.point, [], .float 1, .float 2, .float 0, false, none⟩, 0⟩]⟩
  constraints := ⟨[]⟩
  groups := []

/-- The point is registered. -/
def start : Registry Float :=
  ⟨[⟨⟨0, 0⟩, .x⟩, ⟨⟨0, 0⟩, .y⟩], [(⟨⟨0, 0⟩, .x⟩, 0), (⟨⟨0, 0⟩, .y⟩, 1)], [1, 2], []⟩

/-- The point is to be bound to a position far above all doubles. -/
def calls : List (Call Number) := [.bind ⟨0, 0⟩ ⟨.float 0, .int (10 ^ 400)⟩ ⟨9, 0⟩]

theorem made : ofSketch Number.double? sketch = .ok start := rfl

theorem unreadable : Number.double? (.int (10 ^ 400)) = none :=
  Option.isNone_iff_eq_none.mp (by decide +kernel)

/-- The call stops with the first coordinate bound. -/
def half : Registry Float := (start.write 0 0).tie ⟨⟨0, 0⟩, .x⟩ ⟨9, 0⟩

theorem run_eq : start.run Number.double? calls = half := by
  have first : start.bindOne Number.double? ⟨⟨0, 0⟩, .x⟩ (.float 0) ⟨9, 0⟩ = .ok half := rfl
  have second : half.bindOne Number.double? ⟨⟨0, 0⟩, .y⟩ (.int (10 ^ 400)) ⟨9, 0⟩ =
      .error .unreadable := by
    simp only [bindOne, store, unreadable]
  have bound : start.bind Number.double? ⟨0, 0⟩ ⟨.float 0, .int (10 ^ 400)⟩ ⟨9, 0⟩ =
      (half, .error .unreadable) := by
    rw [bind, if_neg (by decide), first]
    dsimp only
    rw [second]
  rw [calls, run, List.foldl_cons, perform, bound]
  rfl

end Torn

theorem lasts_run_torn : ofSketch Number.double? Torn.sketch = .ok Torn.start ∧
    (Torn.start.run Number.double? Torn.calls).Lasts Number.double? Torn.sketch Torn.calls :=
  ⟨Torn.made, lasts_run Torn.made Torn.calls⟩

/-- **A point can be torn apart.** Its first coordinate is bound and its second one is not, after a
call to bind it to a position whose second number is too large. -/
theorem exists_torn :
    ∃ (sketch : Sketch Number) (start : Registry Float) (calls : List (Call Number)) (h : Handle)
      (feature : Feature Number), ofSketch Number.double? sketch = .ok start ∧
      sketch.feature? h = some feature ∧ feature.kind = .point ∧
      ((start.run Number.double? calls).binding? ⟨h, .x⟩).isSome = true ∧
      (start.run Number.double? calls).binding? ⟨h, .y⟩ = none := by
  refine ⟨Torn.sketch, Torn.start, Torn.calls, ⟨0, 0⟩, _, Torn.made, rfl, rfl, ?_, ?_⟩
  · rw [Torn.run_eq]
    rfl
  · rw [Torn.run_eq]
    rfl

end PlaneSketch.Registry
