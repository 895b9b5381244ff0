import Mathlib
import PlaneSketch.Proofs.Blocks

/-!
Drawings that differ in numbers only.

The outline of a feature is its kind and its references. Nearly all that a solve plans with is read
off outlines and constraints: flaws, what they touch, blocks, anchors. Where the points are drawn
comes in as the values in the pool alone.

* `Alike`: the features have the same outlines under the same handles.
* `flaws_eq`, `compiled_eq`: drawings with the same outline have the same flaws and compile to the
  same blocks.
-/

namespace PlaneSketch

/-! ### Changing all items -/

namespace Arena

variable {σ τ : Type}

/-- The items changed one by one, under the same handles. -/
def map (change : σ → τ) (arena : Arena σ) : Arena τ :=
  ⟨arena.slots.map fun slot => ⟨slot.item.map change, slot.generation⟩⟩

theorem get?_map (change : σ → τ) (arena : Arena σ) (h : Handle) :
    (arena.map change).get? h = (arena.get? h).map change := by
  unfold get? slot? map
  split
  · rename_i slot found
    split at found
    · cases found
    · rename_i nonneg
      obtain ⟨slot', found', rfl⟩ := Option.map_eq_some_iff.mp (List.getElem?_map.symm.trans found)
      simp only [nonneg, if_false, found']
      split <;> rfl
  · rename_i found
    split at found
    · rename_i below
      simp [below]
    · rename_i nonneg
      rw [List.getElem?_map, Option.map_eq_none_iff] at found
      simp [nonneg, found]

theorem isStale_map (change : σ → τ) (arena : Arena σ) (h : Handle) :
    (arena.map change).isStale h = arena.isStale h := by
  unfold isStale slot? map
  by_cases below : h.index < 0
  · simp [below]
  · simp only [below, if_false, List.getElem?_map]
    cases arena.slots[h.index.toNat]? <;> rfl

theorem items_map (change : σ → τ) (arena : Arena σ) :
    (arena.map change).items = arena.items.map fun item => (item.1, change item.2) := by
  suffices all : ∀ (slots : List (Slot σ)) (start : Nat),
      itemsFrom start (slots.map fun slot => ⟨slot.item.map change, slot.generation⟩) =
        (itemsFrom start slots).map fun item => (item.1, change item.2) from all arena.slots 0
  intro slots
  induction slots with
  | nil => exact fun _ => rfl
  | cons slot slots ih =>
    intro start
    rw [List.map_cons, itemsFrom, itemsFrom]
    cases held : slot.item with
    | none => simpa using ih (start + 1)
    | some item => simpa using ih (start + 1)

end Arena

/-! ### Outlines -/

/-- What a feature is and what it is built on. -/
def Feature.outline {α : Type} (feature : Feature α) : FeatureKind × List Handle :=
  (feature.kind, feature.references)

namespace Sketch

variable {α : Type}

/-- The features are of the same kinds and refer to the same features. -/
def Alike (sketch other : Sketch α) : Prop :=
  other.features.map Feature.outline = sketch.features.map Feature.outline

namespace Alike

variable {sketch other : Sketch α}

theorem of_features_eq (same : other.features = sketch.features) : sketch.Alike other := by
  rw [Alike, same]

theorem outline (alike : sketch.Alike other) (h : Handle) :
    (other.feature? h).map Feature.outline = (sketch.feature? h).map Feature.outline := by
  rw [feature?, feature?, ← Arena.get?_map, ← Arena.get?_map, alike]

/-- A handle names nothing in both drawings, or it names features with the same outline. -/
theorem cases (alike : sketch.Alike other) (h : Handle) :
    (sketch.feature? h = none ∧ other.feature? h = none) ∨
      ∃ feature feature', sketch.feature? h = some feature ∧ other.feature? h = some feature' ∧
        feature'.kind = feature.kind ∧ feature'.references = feature.references := by
  have same := alike.outline h
  cases found : sketch.feature? h with
  | none =>
    rw [found, Option.map_none, Option.map_eq_none_iff] at same
    exact .inl ⟨rfl, same⟩
  | some feature =>
    rw [found] at same
    obtain ⟨feature', found', outlines⟩ := Option.map_eq_some_iff.mp same
    exact .inr ⟨feature, feature', rfl, found', Prod.mk.inj outlines⟩

theorem kind? (alike : sketch.Alike other) (h : Handle) :
    (other.feature? h).map (·.kind) = (sketch.feature? h).map (·.kind) := by
  rcases alike.cases h with ⟨none, none'⟩ | ⟨feature, feature', found, found', kind, -⟩
  · rw [none, none']
  · rw [found, found', Option.map_some, Option.map_some, kind]

theorem references? (alike : sketch.Alike other) (h : Handle) :
    (other.feature? h).map (·.references) = (sketch.feature? h).map (·.references) := by
  rcases alike.cases h with ⟨none, none'⟩ | ⟨feature, feature', found, found', -, references⟩
  · rw [none, none']
  · rw [found, found', Option.map_some, Option.map_some, references]

theorem isLive (alike : sketch.Alike other) (h : Handle) : other.isLive h = sketch.isLive h := by
  have same := congrArg Option.isSome (alike.outline h)
  rwa [Option.isSome_map, Option.isSome_map] at same

theorem isStale (alike : sketch.Alike other) (h : Handle) :
    other.features.isStale h = sketch.features.isStale h := by
  rw [← Arena.isStale_map Feature.outline, alike, Arena.isStale_map]

/-- The features come in pairs with the same handle and the same outline. -/
theorem items (alike : sketch.Alike other) :
    List.Forall₂ (fun item item' => item'.1 = item.1 ∧ item'.2.kind = item.2.kind ∧
      item'.2.references = item.2.references) sketch.features.items other.features.items := by
  have same := congrArg Arena.items alike
  rw [Arena.items_map, Arena.items_map, ← List.forall₂_eq_eq_eq, List.forall₂_map_left_iff,
    List.forall₂_map_right_iff] at same
  refine same.flip.imp fun item item' equal => ?_
  obtain ⟨handles, outlines⟩ := Prod.mk.inj equal
  exact ⟨handles, Prod.mk.inj outlines⟩

theorem handles (alike : sketch.Alike other) :
    other.features.handles = sketch.features.handles :=
  (map_eq_of_forall₂ (alike.items.imp fun _ _ same => same.1.symm)).symm

/-- What reads the outline of a live feature reads the same in both drawings. -/
theorem bind_liveFeature (alike : sketch.Alike other) (h : Handle) {τ : Type}
    {next next' : Feature α → Except Failure τ}
    (same : ∀ feature feature', feature'.kind = feature.kind →
      feature'.references = feature.references → next' feature' = next feature) :
    (other.liveFeature h >>= next') = sketch.liveFeature h >>= next := by
  rw [liveFeature, liveFeature]
  rcases alike.cases h with ⟨none, none'⟩ | ⟨feature, feature', found, found', kind, references⟩
  · rw [none, none']
    rfl
  · rw [found, found']
    exact same feature feature' kind references

end Alike

/-! ### What depends on outlines alone -/

section Outlines

variable {sketch other : Sketch α}

theorem closure_congr (alike : sketch.Alike other) {pool pool' : Pool α}
    (shape : Pool.SameShape pool pool') (handles : List Handle) :
    other.closure pool' handles = sketch.closure pool handles := by
  have registered : ∀ h, variablesOf pool' h = variablesOf pool h := fun h => by
    rw [variablesOf, variablesOf, funext shape.contains]
  suffices search : ∀ visited waiting,
      other.closureFrom pool' visited waiting = sketch.closureFrom pool visited waiting from
    search [] handles
  intro visited waiting
  fun_induction closureFrom sketch pool visited waiting with
  | case1 => rw [closureFrom]
  | case2 visited h rest seen ih => rw [closureFrom, dif_pos seen, ih]
  | case3 visited h rest fresh dead ih =>
    rw [closureFrom, dif_neg fresh]
    rcases alike.cases h with ⟨-, dead'⟩ | ⟨_, _, found, -⟩
    · split
      · exact ih
      · rename_i found'
        rw [dead'] at found'
        cases found'
    · rw [dead] at found
      cases found
  | case4 visited h rest fresh feature found ih =>
    rw [closureFrom, dif_neg fresh]
    rcases alike.cases h with ⟨dead, -⟩ | ⟨_, feature', same, found', -, references⟩
    · rw [found] at dead
      cases dead
    · obtain rfl := Option.some.inj (found.symm.trans same)
      split
      · rename_i dead
        rw [found'] at dead
        cases dead
      · rename_i feature'' found''
        obtain rfl := Option.some.inj (found'.symm.trans found'')
        rw [registered, references, ih]

theorem spreadBroken_congr (alike : sketch.Alike other) (broken : List Handle) :
    other.spreadBroken broken = sketch.spreadBroken broken := by
  have next : ∀ broken, other.nextBroken? broken = sketch.nextBroken? broken := by
    intro broken
    symm
    refine map_find?_of_forall₂ alike.items ?_ fun _ _ same => same.1.symm
    rintro ⟨h, feature⟩ ⟨_, feature'⟩ ⟨rfl, -, references⟩
    dsimp only at references ⊢
    simp only [references, alike.isLive]
  fun_induction spreadBroken sketch broken with
  | case1 broken none =>
    rw [spreadBroken]
    split
    · rfl
    · rename_i found
      rw [next, none] at found
      cases found
  | case2 broken h found ih =>
    rw [spreadBroken]
    split
    · rename_i none
      rw [next, found] at none
      cases none
    · rename_i found'
      rw [next, found] at found'
      cases found'
      exact ih

end Outlines

end Sketch

namespace Cycle.Search

section Steps

variable {α : Type} {sketch : Sketch α} {s : Search} {step : Step} {outer : List Step} {h : Handle}
  {rest : List Handle}

/-! How a search goes on: it is done, goes back, or follows the next reference. -/

theorem run_done (done : s.path = []) : run sketch s = s := by
  rw [run]
  split
  · rfl
  · rename_i path
    rw [done] at path
    cases path

theorem run_back (path : s.path = step :: outer) (last : step.remaining = []) :
    run sketch s = run sketch { s with path := outer } := by
  rw [run]
  split
  · rename_i done
    rw [path] at done
    cases done
  · rename_i path'
    rw [path] at path'
    cases path'
    split
    · rfl
    · rename_i next
      rw [last] at next
      cases next

theorem run_next (path : s.path = step :: outer) (next : step.remaining = h :: rest) :
    run sketch s =
      let s' : Search := { s with path := ⟨step.owner, rest⟩ :: outer }
      if sketch.isLive h = false then run sketch s'
      else if s.onPath h then run sketch (s'.report (s.cycleFrom h))
      else if s.entered.contains h = false then run sketch (enter sketch s' h)
      else run sketch s' := by
  rw [run]
  split
  · rename_i done
    rw [path] at done
    cases done
  · rename_i path'
    rw [path] at path'
    cases path'
    split
    · rename_i last
      rw [next] at last
      cases last
    · rename_i next'
      rw [next] at next'
      cases next'
      rfl

end Steps

variable {α : Type} {sketch other : Sketch α}

theorem enter_congr (alike : sketch.Alike other) (s : Search) (h : Handle) :
    enter other s h = enter sketch s h := by
  rw [enter, enter, alike.references?]

theorem run_congr (alike : sketch.Alike other) (s : Search) : run other s = run sketch s := by
  fun_induction run sketch s with
  | case1 s done => exact run_done done
  | case2 s step outer path last ih => rw [run_back path last, ih]
  | case3 s step outer path h rest next s' dead ih =>
    rw [run_next path next, alike.isLive, if_pos dead]
    exact ih
  | case4 s step outer path h rest next s' alive onPath ih =>
    rw [run_next path next, alike.isLive, if_neg alive, if_pos onPath]
    exact ih
  | case5 s step outer path h rest next s' alive offPath fresh ih =>
    rw [run_next path next, alike.isLive, if_neg alive, if_neg offPath, if_pos fresh,
      enter_congr alike]
    exact ih
  | case6 s step outer path h rest next s' alive offPath seen ih =>
    rw [run_next path next, alike.isLive, if_neg alive, if_neg offPath, if_neg seen]
    exact ih

end Cycle.Search

namespace Sketch

section Outlines

variable {α : Type} {sketch other : Sketch α}

theorem cycles_congr (alike : sketch.Alike other) : Cycle.all other = Cycle.all sketch := by
  have visit : Cycle.Search.visit other = Cycle.Search.visit sketch := by
    funext s h
    unfold Cycle.Search.visit
    split
    · rfl
    · rw [Cycle.Search.run_congr alike, Cycle.Search.enter_congr alike]
  rw [Cycle.all, Cycle.all, visit, alike.handles]

theorem cycleFlaws_congr (alike : sketch.Alike other) : other.cycleFlaws = sketch.cycleFlaws := by
  rw [cycleFlaws, cycleFlaws, cycles_congr alike]

theorem referenceFault?_congr (alike : sketch.Alike other) (h : Handle) (expected : FeatureKind) :
    other.referenceFault? h expected = sketch.referenceFault? h expected := by
  rw [referenceFault?, referenceFault?, alike.isStale]
  rcases alike.cases h with ⟨none, none'⟩ | ⟨feature, feature', found, found', kind, -⟩
  · rw [none, none']
  · rw [found, found']
    simp only [kind]

theorem featureFlaws_congr (alike : sketch.Alike other) :
    other.featureFlaws = sketch.featureFlaws := by
  have fault : other.referenceFault? = sketch.referenceFault? := by
    funext h expected
    exact referenceFault?_congr alike h expected
  rw [featureFlaws, featureFlaws, List.flatMap_def, List.flatMap_def]
  refine congrArg List.flatten (map_eq_of_forall₂ (alike.items.imp fun item item' same => ?_)).symm
  simp only [featureFaults, fault, same.1, same.2.1, same.2.2]

theorem ends_congr (alike : sketch.Alike other) (h : Handle) : other.ends h = sketch.ends h :=
  alike.bind_liveFeature h fun feature feature' _ references => by rw [references]

theorem measuredPoints_congr (alike : sketch.Alike other) (references : List Handle) :
    other.measuredPoints references = sketch.measuredPoints references := by
  unfold measuredPoints
  simp only [ends_congr alike]

theorem radiusOf_congr (alike : sketch.Alike other) (h : Handle) :
    other.radiusOf h = sketch.radiusOf h :=
  alike.bind_liveFeature h fun feature feature' kind references => by rw [kind, references]

theorem dragAnchors_congr (alike : sketch.Alike other) (h : Handle) :
    other.dragAnchors h = sketch.dragAnchors h :=
  alike.bind_liveFeature h fun feature feature' kind references => by rw [kind, references]

theorem arcBlocks_congr (alike : sketch.Alike other) (skip : List Handle) :
    other.arcBlocks skip = sketch.arcBlocks skip := by
  symm
  refine mapM_of_forall₂ (filter_of_forall₂ alike.items ?_) ?_
  · rintro ⟨h, feature⟩ ⟨_, feature'⟩ ⟨rfl, kind, -⟩
    dsimp only at kind ⊢
    rw [kind]
  · rintro ⟨h, feature⟩ ⟨_, feature'⟩ ⟨rfl, -, references⟩
    dsimp only at references ⊢
    rw [references]

theorem coincidence_congr (alike : sketch.Alike other) (constraint point h : Handle) :
    other.coincidence constraint point h = sketch.coincidence constraint point h :=
  alike.bind_liveFeature h fun feature feature' kind references => by
    rw [kind, references, ends_congr alike]

variable [Scalar α]

theorem constraintFault?_congr (alike : sketch.Alike other) (broken : List Handle)
    (constraint : Constraint α) :
    other.constraintFault? broken constraint = sketch.constraintFault? broken constraint := by
  unfold constraintFault?
  simp only [alike.isLive, alike.isStale, alike.kind?]

theorem relationOf_congr (alike : sketch.Alike other) (h : Handle) (constraint : Constraint α) :
    other.relationOf h constraint = sketch.relationOf h constraint := by
  have middle : ∀ p q about, (do
      let centre ← other.liveFeature about
      if centre.kind = .point then return .midpoint p q about
      else
        let ends ← sketch.ends about
        return .reflected p q ends.1 ends.2 : Except Failure (Relation α)) = do
      let centre ← sketch.liveFeature about
      if centre.kind = .point then return .midpoint p q about
      else
        let ends ← sketch.ends about
        return .reflected p q ends.1 ends.2 :=
    fun p q about => alike.bind_liveFeature about fun feature feature' kind _ => by rw [kind]
  unfold relationOf
  simp only [ends_congr alike, measuredPoints_congr alike, radiusOf_congr alike,
    coincidence_congr alike, middle]

theorem compileConstraints_congr (alike : sketch.Alike other) (pool : Pool α)
    (items : List (Handle × Constraint α)) :
    other.compileConstraints pool items = sketch.compileConstraints pool items := by
  have one : ∀ pool h constraint,
      other.compileConstraint pool h constraint = sketch.compileConstraint pool h constraint := by
    intro pool h constraint
    unfold compileConstraint
    simp only [relationOf_congr alike]
  induction items generalizing pool with
  | nil => rfl
  | cons item items ih => simp only [compileConstraints, one, ih]

end Outlines

end Sketch

/-! ### The variables of an outline -/

namespace Pool

variable {α : Type} {sketch other : Sketch α}

theorem keys_add (pool : Pool α) (v : Variable) (value : α) :
    (pool.add v value).keys = if v ∈ pool.keys then pool.keys else pool.keys ++ [v] := by
  unfold add
  split
  · rfl
  · simp [keys]

/-- Which variables are registered does not hang on their values. -/
theorem keys_foldl_add (pairs : List (Variable × α)) (pool : Pool α) :
    (pairs.foldl (fun pool pair => pool.add pair.1 pair.2) pool).keys =
      (pairs.map (·.1)).foldl (fun keys v => if v ∈ keys then keys else keys ++ [v])
        pool.keys := by
  induction pairs generalizing pool with
  | nil => rfl
  | cons pair pairs ih => rw [List.foldl_cons, ih, keys_add, List.map_cons, List.foldl_cons]

/-- **The same variables are registered**, in the same order, and none is bound. -/
theorem sameShape_ofSketch (alike : sketch.Alike other) :
    SameShape (ofSketch sketch) (ofSketch other) where
  keys := by
    have unknowns : (sketch.features.items.flatMap fun item => unknownsOf item.1 item.2).map
        (·.1) = (other.features.items.flatMap fun item => unknownsOf item.1 item.2).map (·.1) := by
      rw [List.map_flatMap, List.map_flatMap, List.flatMap_def, List.flatMap_def]
      refine congrArg List.flatten (map_eq_of_forall₂ (alike.items.imp ?_))
      rintro ⟨h, feature⟩ ⟨_, feature'⟩ ⟨rfl, kind, -⟩
      dsimp only at kind ⊢
      simp only [unknownsOf, kind, List.map_map]
      rfl
    rw [ofSketch_eq, ofSketch_eq, keys_foldl_add, keys_foldl_add, unknowns]
  binding? v := by rw [binding?_ofSketch, binding?_ofSketch]

end Pool

namespace Sketch

/-! ### Drawings with the same outline -/

section SameOutline

variable {α : Type} [Scalar α]

/-- The drawings differ in the numbers of features only. -/
structure SameOutline (sketch other : Sketch α) : Prop where
  features : sketch.Alike other
  constraints : other.constraints = sketch.constraints

namespace SameOutline

variable {sketch other : Sketch α}

omit [Scalar α] in
theorem refl (sketch : Sketch α) : sketch.SameOutline sketch := ⟨rfl, rfl⟩

omit [Scalar α] in
theorem brokenFeatures_eq (same : sketch.SameOutline other) (flaws : List (Flaw α)) :
    other.brokenFeatures flaws = sketch.brokenFeatures flaws :=
  spreadBroken_congr same.features _

/-- **The flaws are those of the outline.** -/
theorem flaws_eq (same : sketch.SameOutline other) : other.flaws = sketch.flaws := by
  have constraints : ∀ broken, other.constraintFlaws broken = sketch.constraintFlaws broken := by
    intro broken
    rw [constraintFlaws, constraintFlaws, same.constraints]
    simp only [constraintFault?_congr same.features]
  rw [flaws, flaws, featureFlaws_congr same.features, cycleFlaws_congr same.features,
    same.brokenFeatures_eq, constraints]

/-- **The blocks are those of the outline**, from whatever pool. -/
theorem compiled_eq (same : sketch.SameOutline other) (pool : Pool α) :
    Plan.compiled other pool other.flaws = Plan.compiled sketch pool sketch.flaws := by
  rw [Plan.compiled, Plan.compiled, same.flaws_eq, same.brokenFeatures_eq, compile, compile,
    arcBlocks_congr same.features, same.constraints]
  simp only [compileConstraints_congr same.features]

end SameOutline

end SameOutline

end Sketch

end PlaneSketch
