import PlaneSketch.Proofs.Permanence
import PlaneSketch.Proofs.Pool

/-!
A registry and a pool that hold the same.

A pool keeps with each variable all that is said of it, a registry keeps the same in four tables.
Asked for the same, with numbers that can be read, they give the same answers and hold the same
afterwards, also when a call stops half-way.

* `Mirrors`: they hold the same.
* `Mirrors.perform`, `Mirrors.run`: and go on to do so.
* `exists_ofSketch`: so do those of a drawing.
* `mirrors_run`: the calls of a solver, whose numbers are values already.
-/

namespace PlaneSketch

namespace Pool

variable {α : Type} {pool : Pool α} {v w : Variable} {c : Handle}

/-! ### Places in a pool -/

/-- The index of a variable is its place. -/
theorem index_eq_ok_iff {i : Nat} : pool.index v = .ok i ↔ pool.keys[i]? = some v := by
  unfold index
  cases place : pool.keys.findIdx? (fun w => decide (w = v)) with
  | none =>
    have absent := List.findIdx?_eq_none_iff.mp place
    simp only [reduceCtorEq, false_iff]
    intro there
    simpa using absent v (List.mem_of_getElem? there)
  | some j =>
    obtain ⟨inside, here, -⟩ := List.findIdx?_eq_some_iff_getElem.mp place
    have at_j : pool.keys[j]? = some v := by
      rw [List.getElem?_eq_getElem inside]
      simpa using here
    rw [Except.ok.injEq]
    constructor
    · rintro rfl
      exact at_j
    · intro there
      exact (List.getElem?_inj inside pool.nodup_keys).mp (at_j.trans there.symm)

theorem getElem?_keys (pool : Pool α) (i : Nat) : pool.keys[i]? = pool.entries[i]?.map (·.key) :=
  List.getElem?_map ..

/-- The entry of a variable stands at its place. -/
theorem entry?_of_place {i : Nat} (place : pool.keys[i]? = some v) :
    pool.entry? v = pool.entries[i]? := by
  rw [getElem?_keys, Option.map_eq_some_iff] at place
  obtain ⟨entry, found, rfl⟩ := place
  rw [found]
  exact entry?_eq_some_iff.mpr ⟨List.mem_of_getElem? found, rfl⟩

/-- Changing a variable changes the value at its place. -/
theorem values_modify {i : Nat} (place : pool.keys[i]? = some v) (x : α)
    (binding : Option Handle → Option Handle) :
    ((pool.modify v fun entry => (x, binding entry.2)).entries.map (·.value)) =
      (pool.entries.map (·.value)).set i x := by
  apply List.ext_getElem?
  intro j
  rw [entries_modify, List.map_map, List.getElem?_map, List.getElem?_set, List.length_map,
    List.getElem?_map]
  cases held : pool.entries[j]? with
  | none =>
    have outside : ¬j < pool.entries.length := by simpa using held
    split
    · rename_i same
      rw [same, if_neg outside]
      rfl
    · rfl
  | some entry =>
    have inside : j < pool.entries.length := (List.getElem?_eq_some_iff.mp held).1
    have key : pool.keys[j]? = some entry.key := by rw [getElem?_keys, held, Option.map_some]
    rw [Option.map_some, Function.comp_apply]
    by_cases same : i = j
    · subst same
      have this : entry.key = v := Option.some.inj (key.symm.trans place)
      rw [if_pos rfl, if_pos inside, if_pos this]
    · -- no other place holds the variable
      have other : entry.key ≠ v := by
        rintro rfl
        have here : i < pool.keys.length := (List.getElem?_eq_some_iff.mp place).1
        exact same ((List.getElem?_inj here pool.nodup_keys).mp (place.trans key.symm))
      rw [if_neg same, if_neg other, Option.map_some]

/-- Do what a call asks of a pool. -/
def perform (pool : Pool α) : Registry.Call α → Pool α × Except Failure Registry.Reply
  | .register v x => (pool.register v x).map id (·.map .place)
  | .setValue v x => (pool.setValue v x).map id (·.map fun _ => .done)
  | .seed values => ((pool.seed values).1, .ok (.seeded (pool.seed values).2))
  | .bind point position c => (pool.bind point position c).map id (·.map .bound)
  | .scatter unknowns values => (pool.scatter unknowns values).map id (·.map fun _ => .done)

/-- The pool that several calls leave. -/
def run (pool : Pool α) (calls : List (Registry.Call α)) : Pool α :=
  calls.foldl (fun pool call => (pool.perform call).1) pool

end Pool

namespace Registry

variable {ν α : Type} {read : ν → Option α} {registry : Registry α} {pool : Pool α}
  {v : Variable} {c : Handle}

/-! ### The same in both -/

/-- The registry and the pool hold the same. -/
structure Mirrors (registry : Registry α) (pool : Pool α) : Prop where
  step : registry.InStep
  keys : registry.keys = pool.keys
  values : registry.values = pool.entries.map (·.value)
  binding? : ∀ v, registry.binding? v = pool.binding? v

/-- An answer of a pool, as a registry gives it. -/
def answer {τ : Type} (outcome : Except Failure τ) : Except Fault τ := outcome.mapError .refused

theorem map_answer {τ υ : Type} (f : τ → υ) {given : Except Fault τ} {outcome : Except Failure τ}
    (same : given = answer outcome) : given.map f = answer (outcome.map f) := by
  rw [same]
  cases outcome <;> rfl

/-- A number with the variable that it is for, read. -/
def ReadsTo (read : ν → Option α) (number : Variable × ν) (value : Variable × α) : Prop :=
  number.1 = value.1 ∧ read number.2 = some value.2

namespace Mirrors

theorem place?_eq_some_iff (mirrors : Mirrors registry pool) {i : Nat} :
    registry.place? v = some i ↔ pool.keys[i]? = some v := by
  rw [mirrors.step.place, mirrors.keys]

theorem contains_eq (mirrors : Mirrors registry pool) (v : Variable) :
    registry.contains v = pool.contains v := by
  rw [Bool.eq_iff_iff, mirrors.step.contains_iff, mirrors.keys, Pool.contains_iff]

theorem isFree_eq (mirrors : Mirrors registry pool) (v : Variable) :
    registry.isFree v = pool.isFree v := by
  rw [Bool.eq_iff_iff, isFree, Bool.and_eq_true, mirrors.step.contains_iff, mirrors.keys,
    mirrors.binding?, Option.isNone_iff_eq_none, Pool.isFree_iff]

theorem freeKeys_eq (mirrors : Mirrors registry pool) : registry.freeKeys = pool.freeKeys := by
  rw [freeKeys, mirrors.keys, Pool.freeKeys_eq]
  apply List.filter_congr
  intro v listed
  rw [mirrors.binding?, Bool.eq_iff_iff, Pool.isFree_iff, Option.isNone_iff_eq_none]
  exact (and_iff_right listed).symm

/-- **Both give a variable the same index.** -/
theorem index_eq (mirrors : Mirrors registry pool) (v : Variable) :
    registry.index v = answer (pool.index v) := by
  cases found : pool.index v with
  | ok i =>
    apply (mirrors.step.index_eq_ok_iff v i).mpr
    rw [mirrors.keys]
    exact Pool.index_eq_ok_iff.mp found
  | error failure =>
    have missing : registry.place? v = none := by
      cases place : registry.place? v with
      | none => rfl
      | some i =>
        rw [Pool.index_eq_ok_iff.mpr (mirrors.place?_eq_some_iff.mp place)] at found
        cases found
    have reason : failure = .unknownVariable v := by
      unfold Pool.index at found
      split at found
      · cases found
      · exact (Except.error.inj found).symm
    rw [index, missing, reason]
    rfl

/-- **Both give it the same value.** -/
theorem value_eq (mirrors : Mirrors registry pool) (v : Variable) :
    registry.value v = answer (pool.value v) := by
  cases place : registry.place? v with
  | none =>
    have missing : pool.entry? v = none := by
      cases found : pool.entry? v with
      | none => rfl
      | some entry =>
        obtain ⟨i, known⟩ := mirrors.step.mem_keys_iff.mp
          (mirrors.keys ▸ Pool.mem_keys_iff.mpr ⟨entry, found⟩)
        rw [place] at known
        cases known
    rw [value, index, place, Pool.value, missing]
    rfl
  | some i =>
    have known := mirrors.place?_eq_some_iff.mp place
    obtain ⟨entry, found, -⟩ := Option.map_eq_some_iff.mp
      ((pool.getElem?_keys i).symm.trans known)
    have held : registry.values[i]? = some entry.value := by
      rw [mirrors.values, List.getElem?_map, found, Option.map_some]
    rw [value, index, place, Pool.value, Pool.entry?_of_place known, found]
    simp only [Bind.bind, Except.bind, held]
    rfl

/-! ### Changes -/

/-- A new variable with its value. -/
theorem add (mirrors : Mirrors registry pool) (fresh : registry.contains v = false) (x : α) :
    Mirrors ((registry.enter v).push x) (pool.add v x) := by
  have absent : v ∉ pool.keys := by
    rw [← Pool.contains_iff, ← mirrors.contains_eq, fresh]
    exact Bool.false_ne_true
  have entered : Change registry (registry.enter v) := .enter (place?_of_not_contains fresh)
  have step := (mirrors.step.change entered).change (.push x)
  refine ⟨step, ?_, ?_, fun w => ?_⟩
  · rw [Pool.add, dif_neg absent, push, enter, mirrors.keys]
    simp [Pool.keys]
  · rw [Pool.add, dif_neg absent, push, enter, mirrors.values]
    simp
  · rw [Pool.binding?_add, ← mirrors.binding?]
    rfl

/-- A new value for a variable that is not bound. -/
theorem write (mirrors : Mirrors registry pool) (unbound : registry.binding? v = none) {i : Nat}
    (place : registry.place? v = some i) (x : α) :
    Mirrors (registry.write i x) (pool.write v x) := by
  refine ⟨mirrors.step.change (.write x place unbound), ?_, ?_, fun w => ?_⟩
  · exact mirrors.keys.trans (pool.sameShape_write v x).keys.symm
  · rw [Registry.write, mirrors.values, Pool.write]
    exact (Pool.values_modify (mirrors.place?_eq_some_iff.mp place) x id).symm
  · exact (mirrors.binding? w).trans ((pool.sameShape_write v x).binding? w).symm

/-- A value and a constraint for a variable that was not bound. -/
theorem tie (mirrors : Mirrors registry pool) (unbound : registry.binding? v = none) {i : Nat}
    (place : registry.place? v = some i) (inside : i < registry.values.length) (x : α)
    (c : Handle) :
    Mirrors ((registry.write i x).tie v c) (pool.modify v fun _ => (x, some c)) := by
  have written := mirrors.step.change (.write x place unbound)
  have filled : (registry.write i x).Filled v :=
    ⟨i, place, (length_write registry i x).symm ▸ inside⟩
  have known := mirrors.place?_eq_some_iff.mp place
  refine ⟨written.change (.tie c filled unbound), ?_, ?_, fun w => ?_⟩
  · rw [Pool.keys_modify]
    exact mirrors.keys
  · rw [Registry.tie, Registry.write, mirrors.values]
    exact (Pool.values_modify known x fun _ => some c).symm
  · by_cases same : w = v
    · subst same
      obtain ⟨entry, found, -⟩ := Option.map_eq_some_iff.mp
        ((pool.getElem?_keys i).symm.trans known)
      rw [binding?_tie_self, Pool.binding?, Pool.entry?_modify, Pool.entry?_of_place known, found]
      simp
    · rw [binding?_tie_of_ne same, Pool.binding?, Pool.entry?_modify]
      simp only [if_neg same, Option.map_id']
      exact mirrors.binding? w

/-- **Storing a number that can be read** fails for unknown variables alone. -/
theorem store_cases (mirrors : Mirrors registry pool) {number : ν} {x : α}
    (known : read number = some x) :
    (∃ i, registry.place? v = some i ∧ i < registry.values.length ∧ pool.contains v = true ∧
        registry.store read v number = .ok (registry.write i x)) ∨
      pool.contains v = false ∧
        registry.store read v number = .error (.refused (.unknownVariable v)) := by
  cases place : registry.place? v with
  | none =>
    refine .inr ⟨?_, ?_⟩
    · rw [← mirrors.contains_eq, contains, place]
      rfl
    · simp only [store, known, place]
  | some i =>
    have inside : i < registry.values.length := by
      obtain ⟨inside, -⟩ := List.getElem?_eq_some_iff.mp (mirrors.place?_eq_some_iff.mp place)
      rw [mirrors.values, List.length_map]
      simpa [Pool.keys] using inside
    refine .inl ⟨i, rfl, inside, ?_, ?_⟩
    · rw [← mirrors.contains_eq, contains, place]
      rfl
    · simp only [store, known, place, if_pos inside]

/-! ### Calls -/

theorem register (mirrors : Mirrors registry pool) {number : ν} {x : α}
    (known : read number = some x) (v : Variable) :
    Mirrors (registry.register read v number).1 (pool.register v x).1 ∧
      (registry.register read v number).2 = answer (pool.register v x).2 := by
  have size : registry.keys.length = pool.entries.length := by
    rw [mirrors.keys, Pool.keys, List.length_map]
  unfold Registry.register Pool.register
  rw [mirrors.contains_eq]
  split
  · exact ⟨mirrors, rfl⟩
  · rename_i fresh
    rw [← mirrors.contains_eq] at fresh
    simp only [known, size]
    exact ⟨mirrors.add (Bool.eq_false_iff.mpr fresh) x, rfl⟩

theorem setValue (mirrors : Mirrors registry pool) {number : ν} {x : α}
    (known : read number = some x) (v : Variable) :
    Mirrors (registry.setValue read v number).1 (pool.setValue v x).1 ∧
      (registry.setValue read v number).2 = answer (pool.setValue v x).2 := by
  unfold Registry.setValue Pool.setValue
  rw [← mirrors.binding?]
  cases bound : registry.binding? v with
  | some constraint => exact ⟨mirrors, rfl⟩
  | none =>
    rcases mirrors.store_cases known (v := v) with ⟨i, place, -, listed, stored⟩ | ⟨missing, failed⟩
    · simp only [stored, listed, if_true]
      exact ⟨mirrors.write bound place x, rfl⟩
    · simp only [failed, missing, Bool.false_eq_true, if_false]
      exact ⟨mirrors, rfl⟩

theorem seed (mirrors : Mirrors registry pool) {numbers : List (Variable × ν)}
    {values : List (Variable × α)} (known : List.Forall₂ (ReadsTo read) numbers values) :
    Mirrors (registry.seed read numbers).1 (pool.seed values).1 ∧
      (registry.seed read numbers).2 = .ok (pool.seed values).2 := by
  unfold Registry.seed Pool.seed
  generalize 0 = count
  induction known generalizing registry pool count with
  | nil => exact ⟨mirrors, rfl⟩
  | @cons number value numbers values first rest ih =>
    obtain ⟨v, number⟩ := number
    obtain ⟨w, x⟩ := value
    obtain ⟨same, known⟩ := first
    obtain rfl : v = w := same
    unfold Registry.seedFrom
    rw [List.foldl_cons, mirrors.isFree_eq]
    by_cases free : pool.isFree v = true
    · have registered := Pool.contains_iff.mpr (Pool.mem_keys_of_isFree free)
      have unbound := (mirrors.binding? v).trans (Pool.isFree_iff.mp free).2
      rcases mirrors.store_cases known (v := v) with ⟨i, place, -, -, stored⟩ | ⟨missing, -⟩
      · simp only [if_pos free, stored]
        exact ih (mirrors.write unbound place x) (count + 1)
      · rw [registered] at missing
        cases missing
    · simp only [if_neg free]
      exact ih mirrors count

theorem bindOne (mirrors : Mirrors registry pool) {number : ν} {x : α}
    (known : read number = some x) (unbound : registry.binding? v = none) (c : Handle) :
    (∃ later, registry.bindOne read v number c = .ok later ∧ Mirrors later (pool.bindOne v x c).1 ∧
        (pool.bindOne v x c).2 = .ok ()) ∨
      registry.bindOne read v number c = .error (.refused (.unknownVariable v)) ∧
        pool.bindOne v x c = (pool, .error (.unknownVariable v)) := by
  unfold Registry.bindOne Pool.bindOne
  rcases mirrors.store_cases known (v := v) with
    ⟨i, place, inside, listed, stored⟩ | ⟨missing, failed⟩
  · rw [stored, if_pos listed]
    exact .inl ⟨_, rfl, mirrors.tie unbound place inside x c, rfl⟩
  · rw [failed, missing]
    exact .inr ⟨rfl, rfl⟩

theorem bind (mirrors : Mirrors registry pool) {position : Vec2 ν} {x y : α}
    (knownX : read position.x = some x) (knownY : read position.y = some y) (point : Handle)
    (c : Handle) :
    Mirrors (registry.bind read point position c).1 (pool.bind point ⟨x, y⟩ c).1 ∧
      (registry.bind read point position c).2 = answer (pool.bind point ⟨x, y⟩ c).2 := by
  unfold Registry.bind Pool.bind
  rw [mirrors.binding?, mirrors.binding?]
  split
  · exact ⟨mirrors, rfl⟩
  · rename_i loose
    simp only [Bool.or_eq_true, not_or, Option.not_isSome_iff_eq_none, ← mirrors.binding?] at loose
    rcases mirrors.bindOne knownX loose.1 c with ⟨half, first, mirrors', done⟩ | ⟨failed, failed'⟩
    · -- the second coordinate is still free
      have free : half.binding? ⟨point, .y⟩ = none :=
        ((binding?_of_bindOne first).2 _ (by simp)).trans loose.2
      have begun : pool.bindOne ⟨point, .x⟩ x c = ((pool.bindOne ⟨point, .x⟩ x c).1, .ok ()) :=
        Prod.ext rfl done
      rw [first, begun]
      dsimp only
      rcases mirrors'.bindOne knownY free c with
        ⟨whole, second, mirrors'', done'⟩ | ⟨failed, failed'⟩
      · rw [second]
        exact ⟨mirrors'', by rw [done']; rfl⟩
      · rw [failed, failed']
        exact ⟨mirrors', rfl⟩
    · rw [failed, failed']
      exact ⟨mirrors, rfl⟩

theorem scatter (mirrors : Mirrors registry pool) {numbers : List ν} {values : List α}
    (known : List.Forall₂ (fun number x => read number = some x) numbers values)
    (unknowns : List Variable) :
    Mirrors (registry.scatter read unknowns numbers).1 (pool.scatter unknowns values).1 ∧
      (registry.scatter read unknowns numbers).2 = answer (pool.scatter unknowns values).2 := by
  induction known generalizing registry pool unknowns with
  | nil => cases unknowns <;> exact ⟨mirrors, rfl⟩
  | @cons number x numbers values first rest ih =>
    cases unknowns with
    | nil => exact ⟨mirrors, rfl⟩
    | cons v unknowns =>
      obtain ⟨mirrors', same⟩ := mirrors.setValue first v
      unfold Registry.scatter Pool.scatter
      split
      · rename_i failed
        rw [failed] at same mirrors'
        split
        · rename_i failed'
          rw [failed'] at same mirrors'
          exact ⟨mirrors', same⟩
        · rename_i done
          rw [done] at same
          cases same
      · rename_i done
        rw [done] at same mirrors'
        split
        · rename_i failed'
          rw [failed'] at same
          cases same
        · rename_i done'
          rw [done'] at mirrors'
          exact ih mirrors' unknowns

end Mirrors

/-! ### Whole runs -/

/-- The call with its numbers read, all of which can be. -/
inductive Call.Reads (read : ν → Option α) : Call ν → Call α → Prop
  | register {v : Variable} {number : ν} {x : α} : read number = some x →
      Reads read (.register v number) (.register v x)
  | setValue {v : Variable} {number : ν} {x : α} : read number = some x →
      Reads read (.setValue v number) (.setValue v x)
  | seed {numbers : List (Variable × ν)} {values : List (Variable × α)} :
      List.Forall₂ (ReadsTo read) numbers values → Reads read (.seed numbers) (.seed values)
  | bind {point : Handle} {position : Vec2 ν} {x y : α} {c : Handle} :
      read position.x = some x → read position.y = some y →
      Reads read (.bind point position c) (.bind point ⟨x, y⟩ c)
  | scatter {unknowns : List Variable} {numbers : List ν} {values : List α} :
      List.Forall₂ (fun number x => read number = some x) numbers values →
      Reads read (.scatter unknowns numbers) (.scatter unknowns values)

/-- **A registry and a pool that hold the same do the same**, and give the same answer. -/
theorem Mirrors.perform (mirrors : Mirrors registry pool) {call : Call ν} {call' : Call α}
    (reads : call.Reads read call') :
    Mirrors (registry.perform read call).1 (pool.perform call').1 ∧
      (registry.perform read call).2 = answer (pool.perform call').2 := by
  cases reads with
  | @register v number x known =>
    obtain ⟨mirrors', same⟩ := mirrors.register known v
    exact ⟨mirrors', map_answer Reply.place same⟩
  | @setValue v number x known =>
    obtain ⟨mirrors', same⟩ := mirrors.setValue known v
    exact ⟨mirrors', map_answer (fun _ => Reply.done) same⟩
  | seed known =>
    obtain ⟨mirrors', same⟩ := mirrors.seed known
    exact ⟨mirrors', congrArg (Except.map Reply.seeded) same⟩
  | @bind point position x y c knownX knownY =>
    obtain ⟨mirrors', same⟩ := mirrors.bind knownX knownY point c
    exact ⟨mirrors', map_answer Reply.bound same⟩
  | @scatter unknowns numbers values known =>
    obtain ⟨mirrors', same⟩ := mirrors.scatter known unknowns
    exact ⟨mirrors', map_answer (fun _ => Reply.done) same⟩

theorem Mirrors.run (mirrors : Mirrors registry pool) {calls : List (Call ν)}
    {calls' : List (Call α)} (reads : List.Forall₂ (Call.Reads read) calls calls') :
    Mirrors (registry.run read calls) (pool.run calls') := by
  induction reads generalizing registry pool with
  | nil => exact mirrors
  | cons first _ ih => exact ih (mirrors.perform first).1

/-- A registry with nothing in it holds what a pool with nothing in it does. -/
theorem mirrors_empty : Mirrors (empty : Registry α) Pool.empty :=
  ⟨.empty, rfl, rfl, fun _ => rfl⟩

/-- Enrolling variables that are new, with numbers that can be read, adds them to the pool. -/
theorem Mirrors.enrol (mirrors : Mirrors registry pool) {numbers : List (Variable × ν)}
    {values : List (Variable × α)} (known : List.Forall₂ (ReadsTo read) numbers values)
    (fresh : (pool.keys ++ numbers.map (·.1)).Nodup) :
    ∃ later, registry.enrol read numbers = .ok later ∧
      Mirrors later (values.foldl (fun pool pair => pool.add pair.1 pair.2) pool) := by
  induction known generalizing registry pool with
  | nil => exact ⟨registry, rfl, mirrors⟩
  | @cons number value numbers values first rest ih =>
    obtain ⟨v, number⟩ := number
    obtain ⟨w, x⟩ := value
    obtain ⟨same, known⟩ := first
    obtain rfl : v = w := same
    have absent : v ∉ pool.keys := by
      intro listed
      rw [List.nodup_append'] at fresh
      exact fresh.2.2 listed List.mem_cons_self
    have missing : registry.contains v = false := by
      rw [mirrors.contains_eq, Bool.eq_false_iff, ne_eq, Pool.contains_iff]
      exact absent
    have keys : (pool.add v x).keys = pool.keys ++ [v] := by
      rw [Pool.add, dif_neg absent]
      simp [Pool.keys]
    obtain ⟨later, enrolled, mirrors'⟩ := ih (mirrors.add missing x) (by
      rw [keys]
      simpa using fresh)
    refine ⟨later, ?_, mirrors'⟩
    rw [Registry.enrol]
    simp only [known, Registry.register, missing, Bool.false_eq_true, if_false]
    exact enrolled

theorem map_unknownsOf (h : Handle) (feature : Feature α) :
    (Pool.unknownsOf h feature).map (·.1) = feature.kind.components.map (Variable.mk h) := by
  rw [Pool.unknownsOf, List.map_map]
  rfl

/-- The unknowns of a drawing are different variables. -/
theorem nodup_unknowns (sketch : Sketch α) : ((sketch.features.items.flatMap fun item =>
    Pool.unknownsOf item.1 item.2).map (·.1)).Nodup := by
  have handles : sketch.features.items.Pairwise fun a b => a.1 ≠ b.1 :=
    List.pairwise_map.mp sketch.features.nodup_handles
  rw [List.map_flatMap]
  simp only [map_unknownsOf]
  refine List.nodup_flatMap.mpr ⟨?_, handles.imp ?_⟩
  · intro item _
    have once : item.2.kind.components.Nodup := by cases item.2.kind <;> decide
    exact once.map fun c d same => congrArg Variable.component same
  · intro a b other v here there
    obtain ⟨c, -, rfl⟩ := List.mem_map.mp here
    obtain ⟨d, -, same⟩ := List.mem_map.mp there
    exact other (congrArg Variable.handle same).symm

/-- **The registry of a drawing holds what its pool does.** -/
theorem exists_ofSketch (sketch : Sketch α) :
    ∃ registry, ofSketch some sketch = .ok registry ∧ Mirrors registry (Pool.ofSketch sketch) := by
  exact mirrors_empty.enrol (List.forall₂_same.mpr fun _ _ => ⟨rfl, rfl⟩) (nodup_unknowns sketch)

/-- A call whose numbers are values already. -/
theorem Call.reads_some (call : Call α) : call.Reads some call := by
  have pairs : ∀ values : List (Variable × α), List.Forall₂ (ReadsTo some) values values :=
    fun values => List.forall₂_same.mpr fun _ _ => ⟨rfl, rfl⟩
  cases call with
  | register v x => exact .register rfl
  | setValue v x => exact .setValue rfl
  | seed values => exact .seed (pairs values)
  | bind point position c => exact .bind rfl rfl
  | scatter unknowns values => exact .scatter (List.forall₂_same.mpr fun _ _ => rfl)

/-- **The registry of a drawing does what its pool does**, through any calls whose numbers are
values, and both answer the next call alike. -/
theorem mirrors_run (sketch : Sketch α) (calls : List (Call α)) (next : Call α) :
    ∃ start, ofSketch some sketch = .ok start ∧
      Mirrors (start.run some calls) ((Pool.ofSketch sketch).run calls) ∧
      ((start.run some calls).perform some next).2 =
        answer (((Pool.ofSketch sketch).run calls).perform next).2 := by
  obtain ⟨start, made, mirrors⟩ := exists_ofSketch sketch
  have after := mirrors.run (List.forall₂_same.mpr fun call (_ : call ∈ calls) => call.reads_some)
  exact ⟨start, made, after, (after.perform next.reads_some).2⟩

end Registry

end PlaneSketch
