import Mathlib
import PlaneSketch.Proofs.Editing
import PlaneSketch.Report.Printer

/-!
Values as JSON.

The printed values name a feature by its place alone. As no two live features share a place, nothing
is lost: the values found and the entries printed are the same, one for one.

* `Result.perm_entries`: grouping values by places loses none and doubles none.
* `Result.prints_of_solve`: what is printed of any solve.
* `handles_kept`: handles through a history of edits, and what is printed of a solve after it.
-/

namespace PlaneSketch

/-! ### Objects -/

namespace Assoc

variable {κ β : Type} [DecidableEq κ]

theorem put_of_fresh {key : κ} {map : List (κ × β)} (fresh : key ∉ map.map (·.1)) (value : β) :
    put key value map = map ++ [(key, value)] := by
  induction map with
  | nil => rfl
  | cons pair map ih =>
    rw [List.map_cons, List.mem_cons, not_or] at fresh
    rw [put, if_neg (Ne.symm fresh.1), ih fresh.2, List.cons_append]

theorem putAll_of_nodup {map pairs : List (κ × β)}
    (distinct : ((map ++ pairs).map (·.1)).Nodup) : putAll map pairs = map ++ pairs := by
  induction pairs generalizing map with
  | nil => exact (List.append_nil map).symm
  | cons pair pairs ih =>
    have fresh : pair.1 ∉ map.map (·.1) := by
      rw [List.map_append, List.nodup_append'] at distinct
      exact fun known => distinct.2.2 known List.mem_cons_self
    have step : putAll map (pair :: pairs) = putAll (put pair.1 pair.2 map) pairs := rfl
    rw [List.append_cons] at distinct ⊢
    rw [step, put_of_fresh fresh, ih distinct]

/-- Pairs with different keys are kept as they are. -/
theorem ofPairs_of_nodup {pairs : List (κ × β)} (distinct : (pairs.map (·.1)).Nodup) :
    ofPairs pairs = pairs :=
  @putAll_of_nodup κ β _ [] pairs distinct

end Assoc

namespace Json

/-- The members of the objects in an object, each with both names. -/
def entries : Json → List ((Text × Text) × Json)
  | object fields => fields.flatMap fun field =>
    match field.2 with
    | object members => members.map fun member => ((field.1, member.1), member.2)
    | _ => []
  | _ => []

/-- An object of objects, in all of which each name stands once. -/
def Nested (json : Json) : Prop :=
  ∃ fields, json = .object fields ∧ (fields.map (·.1)).Nodup ∧
    ∀ field ∈ fields, ∃ members, field.2 = .object members ∧ (members.map (·.1)).Nodup

end Json

theorem Component.name_injective : Function.Injective Component.name := by
  intro a b same
  cases a <;> cases b <;> simp [Component.name] at same ⊢

theorem Text.ofString_injective : Function.Injective Text.ofString := by
  intro s t same
  have both := congrArg Text.string? same
  rw [Text.string?_ofString, Text.string?_ofString] at both
  exact Option.some.inj both

theorem toString_injective : Function.Injective (toString : Int → String) :=
  fun _ _ same => Int.repr_inj.mp same

/-! ### Items by a key -/

/-- Items put together by a key are the items. -/
theorem perm_grouped {σ τ : Type} [DecidableEq τ] (key : σ → τ) {items : List σ}
    (distinct : items.Nodup) :
    ((firstOccurrences (items.map key)).flatMap fun k => items.filter fun a => key a = k).Perm
      items := by
  refine (List.perm_ext_iff_of_nodup ?_ distinct).mpr fun a => ?_
  · refine List.nodup_flatMap.mpr ⟨fun k _ => distinct.filter _, ?_⟩
    refine (nodup_firstOccurrences (items.map key)).imp fun {k l} ne a first second => ?_
    have first := (List.mem_filter.mp first).2
    have second := (List.mem_filter.mp second).2
    simp only [decide_eq_true_eq] at first second
    exact ne (first.symm.trans second)
  · simp only [List.mem_flatMap, List.mem_filter, mem_firstOccurrences, decide_eq_true_eq]
    constructor
    · rintro ⟨k, -, listed, -⟩
      exact listed
    · intro listed
      exact ⟨key a, List.mem_map_of_mem listed, listed, rfl⟩

/-- Under which names the value of a variable is printed. -/
def Variable.path (v : Variable) : Text × Text := (toString v.handle.index, v.component.name)

namespace Result

variable {values : List (Variable × Float)}

/-- Features with one index are one feature. -/
def Placed (values : List (Variable × Float)) : Prop :=
  ∀ p ∈ values, ∀ q ∈ values, p.1.handle.index = q.1.handle.index → p.1.handle = q.1.handle

/-- The entry of a value. -/
def printed (pair : Variable × Float) : (Text × Text) × Json := (pair.1.path, .float pair.2)

/-- Different variables are printed under different names. -/
theorem nodup_paths (distinct : (values.map (·.1)).Nodup) (placed : Placed values) :
    (values.map fun pair => pair.1.path).Nodup := by
  refine List.Nodup.map_on ?_ distinct.of_map
  intro p listed q listed' same
  obtain ⟨index, component⟩ := Prod.mk.inj same
  have index := toString_injective (Text.ofString_injective index)
  have component := Component.name_injective (Text.ofString_injective component)
  have handle := placed p listed q listed' index
  refine List.inj_on_of_nodup_map distinct listed listed' ?_
  rw [Variable.mk.injEq]
  exact ⟨handle, component⟩

/-- The values of a feature have different names. -/
theorem nodup_members (distinct : (values.map (·.1)).Nodup) (placed : Placed values)
    (place : Int) : (((values.filter fun pair => pair.1.handle.index = place).map fun pair =>
      (Text.ofString pair.1.component.name, Json.float pair.2)).map (·.1)).Nodup := by
  rw [List.map_map]
  have paths := (nodup_paths distinct placed).sublist
    ((List.filter_sublist (p := fun pair => pair.1.handle.index = place)).map _)
  refine List.Nodup.map_on ?_ (paths.of_map)
  intro p listed q listed' same
  refine List.inj_on_of_nodup_map paths listed listed' (Prod.mk.injEq .. ▸ ⟨?_, same⟩)
  have here := (List.mem_filter.mp listed).2
  have here' := (List.mem_filter.mp listed').2
  simp only [decide_eq_true_eq] at here here'
  rw [here, here']

/-- The values in the order in which they are printed. -/
def sorted (values : List (Variable × Float)) : List (Variable × Float) :=
  values.mergeSort fun a b => a.1.precedes b.1

theorem perm_sorted (values : List (Variable × Float)) : (sorted values).Perm values :=
  List.mergeSort_perm values _

/-- The object that is printed. -/
theorem valuesJson_eq (distinct : (values.map (·.1)).Nodup) (placed : Placed values) :
    valuesJson values = .object ((firstOccurrences ((sorted values).map fun pair =>
      pair.1.handle.index)).map fun place => (Text.ofString (toString place),
        .object (((sorted values).filter fun pair => pair.1.handle.index = place).map fun pair =>
          (Text.ofString pair.1.component.name, Json.float pair.2)))) := by
  have perm := perm_sorted values
  have distinct' : ((sorted values).map (·.1)).Nodup := (perm.map _).nodup_iff.mpr distinct
  have placed' : Placed (sorted values) := fun p listed q listed' =>
    placed p (perm.mem_iff.mp listed) q (perm.mem_iff.mp listed')
  refine congrArg Json.object (List.map_congr_left fun place _ => ?_)
  have members := Assoc.ofPairs_of_nodup (nodup_members distinct' placed' place)
  exact congrArg (fun members => (Text.ofString (toString place), Json.object members)) members

/-- **Grouping by places loses nothing and doubles nothing.** -/
theorem perm_entries (distinct : (values.map (·.1)).Nodup) (placed : Placed values) :
    (valuesJson values).entries.Perm (values.map printed) := by
  have perm := perm_sorted values
  have grouped := perm_grouped (fun pair : Variable × Float => pair.1.handle.index)
    (perm.nodup_iff.mpr distinct.of_map)
  refine .trans (.of_eq ?_) ((grouped.trans perm).map printed)
  rw [valuesJson_eq distinct placed, List.map_flatMap, Json.entries, List.flatMap_map]
  refine List.flatMap_congr fun place _ => ?_
  dsimp only
  rw [List.map_map]
  refine List.map_congr_left fun pair listed => ?_
  have here : pair.1.handle.index = place := by simpa using (List.mem_filter.mp listed).2
  rw [Function.comp_apply, ← here]
  rfl

/-- No name stands twice, neither of a place nor of a number. -/
theorem nested_valuesJson (distinct : (values.map (·.1)).Nodup) (placed : Placed values) :
    (valuesJson values).Nested := by
  have perm := perm_sorted values
  refine ⟨_, valuesJson_eq distinct placed, ?_, ?_⟩
  · rw [List.map_map]
    exact (nodup_firstOccurrences _).map (Text.ofString_injective.comp toString_injective)
  · intro field listed
    obtain ⟨place, -, rfl⟩ := List.mem_map.mp listed
    refine ⟨_, rfl, nodup_members ((perm.map _).nodup_iff.mpr distinct) ?_ place⟩
    intro p listed q listed'
    exact placed p (perm.mem_iff.mp listed) q (perm.mem_iff.mp listed')

/-- The values of a result and the entries printed for them are the same, one for one. -/
structure Prints (result : Result Float) (json : Json) : Prop where
  printed : result.json.field? "variables" = some json
  nested : json.Nested
  /-- different variables have different entries -/
  apart : (result.updated.map fun pair => pair.1.path).Nodup
  entries : json.entries.Perm (result.updated.map Result.printed)

variable {ν : Type} [Ordered ν] {numerals : Numerals ν Float} {methods : Methods Float}
  {options : Options ν} {session session' : Session Float} {sketch : Sketch Float}
  {drag : Option (Drag Float)} {result : Result Float}

/-- **What is printed of a solve** are its values. -/
theorem prints_of_solve
    (done : session.solve numerals methods options sketch drag = (session', .ok result)) :
    ∃ json, result.Prints json := by
  obtain ⟨plan, blocks, make, made, -, told⟩ := exists_told_of_solve done
  have distinct := (recalls_of_solve make done).once
  -- every value is that of a live feature
  have live : ∀ p ∈ result.updated, sketch.features.isLive p.1.handle = true := by
    intro p listed
    have known : p.1 ∈ result.updated.map (·.1) := List.mem_map_of_mem listed
    rw [← not_not (a := p.1 ∈ _), ← Assoc.find?_eq_none_iff, ← ne_eq, ← Option.isSome_iff_ne_none]
      at known
    have registered := ((told.known p.1).mp known).1
    rw [made.keys_eq, (session.sameShape_seeded sketch).keys, Pool.mem_keys_ofSketch] at registered
    obtain ⟨feature, found, -⟩ := registered
    exact Sketch.isLive_iff.mpr ⟨feature, found⟩
  have placed : Placed result.updated := fun p listed q listed' =>
    Arena.eq_of_index_eq (live p listed) (live q listed')
  exact ⟨_, rfl, nested_valuesJson distinct placed, nodup_paths distinct placed,
    perm_entries distinct placed⟩

end Result

/-! ### Handles through a history -/

/-- **Handles are never reused or confused.** After any history of edits each handle issued names
what it was issued for until that is deleted, and nothing from then on; and as no two live handles
share an index, a solve is printed entry by entry. -/
theorem handles_kept (sketch : Sketch Float) (edits : List (Edit Float)) :
    sketch.KeepsHandles edits ∧
      ∀ (ν : Type) [Ordered ν] (numerals : Numerals ν Float) (methods : Methods Float)
        (options : Options ν) (session session' : Session Float) (drag : Option (Drag Float))
        (result : Result Float),
        session.solve numerals methods options ((Draft.start sketch).run edits).sketch drag =
            (session', .ok result) →
          ∃ json, result.Prints json :=
  ⟨sketch.keepsHandles edits, fun _ _ _ _ _ _ _ _ _ done => Result.prints_of_solve done⟩

/-! ### A point that is deleted -/

namespace Erased

variable {α : Type} [Scalar α]

/-- Two points are drawn, one is fixed, the other deleted. -/
def edits : List (Edit α) :=
  [.addFeature (.point 0 0 false), .addFeature (.point 0 0 false),
    .addConstraint (.fixed ⟨0, 0⟩ ⟨1, 1⟩), .deleteFeature ⟨1, 0⟩]

/-- What is left. -/
def drawing : Sketch α :=
  ⟨⟨[⟨some (.point 0 0 false), 0⟩, ⟨none, 1⟩]⟩, ⟨[⟨some (.fixed ⟨0, 0⟩ ⟨1, 1⟩), 0⟩]⟩, []⟩

/-- Settings that were checked over the reals. -/
def numerals : Numerals ℝ α := ⟨fun _ => 0, fun _ => ""⟩

def plan : Plan α :=
  ⟨[], (Pool.ofSketch drawing).pin ⟨0, 0⟩ ⟨1, 1⟩ ⟨0, 0⟩, [], [], [], false, [], []⟩

def result : Result α := ⟨[(⟨⟨0, 0⟩, .x⟩, 1), (⟨⟨0, 0⟩, .y⟩, 1)], [], []⟩

theorem run_eq : (Draft.start .empty).run edits =
    (⟨drawing, [⟨0, 0⟩, ⟨1, 0⟩], [⟨0, 0⟩]⟩ : Draft α) := by
  cbv

theorem solve_eq (methods : Methods α) :
    Session.fresh.solve numerals methods Options.real drawing none = (.fresh, .ok result) := by
  have made : Plan.make drawing (Session.fresh.seeded (drawing : Sketch α)) none = .ok plan := by
    cbv
  have pruned : Session.fresh.prune (Pool.ofSketch (drawing : Sketch α)) = Session.fresh := rfl
  have gathering : Session.gather methods (Options.real.map numerals.value) plan .fresh
      [] [] ⟨plan.pool, .fresh, [], []⟩ = (⟨plan.pool, .fresh, [], []⟩, none) := rfl
  have carried : Session.fresh.carryOut methods (Options.real.map numerals.value)
      (plan : Plan α) = _ := Session.carryOut_of_gather rfl gathering rfl
  rw [Session.solve_of_isUsable Options.isUsable_real made, pruned]
  refine carried.trans ?_
  cbv

end Erased

/-- The handle of the point deleted is stale, and the other point is printed where it is fixed. -/
theorem handles_kept_erased :
    ((Draft.start .empty).run (Erased.edits : List (Edit Float))).sketch.features.isStale ⟨1, 0⟩ =
      true ∧
    ((Draft.start .empty).run (Erased.edits : List (Edit Float))).sketch.features.handles =
      [⟨0, 0⟩] ∧
    ∃ json, (Erased.result : Result Float).Prints json := by
  obtain ⟨kept, prints⟩ := handles_kept .empty Erased.edits
  refine ⟨?_, ?_, ?_⟩
  · obtain ⟨-, names⟩ := kept.feature [.addFeature (.point 0 0 false)] _ _ rfl _ rfl _ rfl
    -- the last edit deletes it
    exact names.stale_iff.mpr ⟨[.addConstraint (.fixed ⟨0, 0⟩ ⟨1, 1⟩)], .deleteFeature ⟨1, 0⟩, [],
      rfl, rfl, .refl (by simp)⟩
  · rw [kept.features.order, Erased.run_eq]
    rfl
  · rw [Erased.run_eq] at prints
    exact prints ℝ Erased.numerals .orthogonal Options.real _ _ _ _ (Erased.solve_eq _)

end PlaneSketch
