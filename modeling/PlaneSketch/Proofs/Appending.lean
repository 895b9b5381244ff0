import Mathlib
import PlaneSketch.Proofs.Arena
import PlaneSketch.Proofs.Outline

/-!
One drawing behind another.

`append` adds the features and then the constraints of a drawing to another one. When neither has a
reference that leads outside, no reference leads from one part to the other: the first drawing is
`Within` the joint one.

* `within_append`: so it is for every two drawings that are `Closed`.
* `flaws_woven`: the first drawing has its flaws in the joint one, in order, and all others are
  about the second.
* `mem_brokenFeatures_iff`: its features are broken in the joint drawing as they are by
  themselves.
-/

namespace PlaneSketch

variable {α : Type}

/-! ### Appending a drawing -/

/-- The handle of an item that has come to stand behind some places. -/
def Handle.moved (places : Nat) (h : Handle) : Handle := ⟨h.index + places, h.generation⟩

/-- The feature with its references behind some places. -/
def Feature.moved (places : Nat) (feature : Feature α) : Feature α :=
  { feature with references := feature.references.map (.moved places) }

/-- The constraint with its references behind some places. -/
def Constraint.moved (places : Nat) (constraint : Constraint α) : Constraint α :=
  { constraint with references := constraint.references.map (.moved places) }

namespace Sketch

/-- The drawing with the features and then the constraints of another one added to it. -/
def append (sketch other : Sketch α) : Sketch α :=
  let places := sketch.features.slots.length
  let drawn := other.features.items.foldl
    (fun drawn item => (drawn.addFeature (item.2.moved places)).1) sketch
  other.constraints.items.foldl
    (fun drawn item => (drawn.addConstraint (item.2.moved places)).1) drawn

/-- Every reference names a feature of the drawing. -/
structure Closed (sketch : Sketch α) : Prop where
  features : ∀ item ∈ sketch.features.items, ∀ r ∈ item.2.references, sketch.isLive r = true
  constraints : ∀ item ∈ sketch.constraints.items, ∀ r ∈ item.2.references, sketch.isLive r = true

theorem foldl_addFeature (change : Feature α → Feature α) (items : List (Handle × Feature α))
    (sketch : Sketch α) :
    items.foldl (fun drawn item => (drawn.addFeature (change item.2)).1) sketch =
      { sketch with features.slots :=
          sketch.features.slots ++ items.map fun item => ⟨some (change item.2), 0⟩ } := by
  induction items generalizing sketch with
  | nil => simp
  | cons item items ih =>
    rw [List.foldl_cons, ih]
    simp [addFeature, Arena.insert]

theorem foldl_addConstraint (change : Constraint α → Constraint α)
    (items : List (Handle × Constraint α)) (sketch : Sketch α) :
    items.foldl (fun drawn item => (drawn.addConstraint (change item.2)).1) sketch =
      { sketch with constraints.slots :=
          sketch.constraints.slots ++ items.map fun item => ⟨some (change item.2), 0⟩ } := by
  induction items generalizing sketch with
  | nil => simp
  | cons item items ih =>
    rw [List.foldl_cons, ih]
    simp [addConstraint, Arena.insert]

theorem features_append (sketch other : Sketch α) :
    (sketch.append other).features.slots = sketch.features.slots ++
      other.features.items.map fun item =>
        ⟨some (item.2.moved sketch.features.slots.length), 0⟩ := by
  unfold append
  dsimp only
  rw [foldl_addConstraint, foldl_addFeature]

theorem constraints_append (sketch other : Sketch α) :
    (sketch.append other).constraints.slots = sketch.constraints.slots ++
      other.constraints.items.map fun item =>
        ⟨some (item.2.moved sketch.features.slots.length), 0⟩ := by
  unfold append
  dsimp only
  rw [foldl_addConstraint, foldl_addFeature]

/-- **A drawing stands in the joint one as it is by itself**, behind the other one, when nothing was
ever removed from it. -/
theorem get?_append {sketch other : Sketch α} (whole : other.features.Whole)
    (whole' : other.constraints.Whole) :
    (∀ h feature, other.feature? h = some feature →
      (sketch.append other).feature? (h.moved sketch.features.slots.length) =
        some (feature.moved sketch.features.slots.length)) ∧
    ∀ h constraint, other.constraints.get? h = some constraint →
      (sketch.append other).constraints.get? (h.moved sketch.constraints.slots.length) =
        some (constraint.moved sketch.features.slots.length) :=
  ⟨fun _ _ found => Arena.get?_behind whole (features_append sketch other) found,
    fun _ _ found => Arena.get?_behind whole' (constraints_append sketch other) found⟩

/-! ### A drawing within another -/

/-- The joint drawing has the features and the constraints of the drawing first, and no reference
leads from one part to the other. -/
structure Within (sketch joint : Sketch α) (features : List (Handle × Feature α))
    (constraints : List (Handle × Constraint α)) : Prop where
  features_eq : joint.features.items = sketch.features.items ++ features
  constraints_eq : joint.constraints.items = sketch.constraints.items ++ constraints
  closed : sketch.Closed
  feature_apart : ∀ item ∈ features, ∀ r ∈ item.2.references, sketch.isLive r = false
  constraint_apart : ∀ item ∈ constraints, ∀ r ∈ item.2.references, sketch.isLive r = false

/-- The features of a drawing as they stand behind another one. -/
def movedFeatures (sketch other : Sketch α) : List (Handle × Feature α) :=
  Arena.itemsFrom sketch.features.slots.length (other.features.items.map fun item =>
    ⟨some (item.2.moved sketch.features.slots.length), 0⟩)

/-- The constraints of a drawing as they stand behind another one. -/
def movedConstraints (sketch other : Sketch α) : List (Handle × Constraint α) :=
  Arena.itemsFrom sketch.constraints.slots.length (other.constraints.items.map fun item =>
    ⟨some (item.2.moved sketch.features.slots.length), 0⟩)

theorem isLive_moved {sketch other : Sketch α} {h : Handle} (live : other.isLive h = true) :
    sketch.isLive (h.moved sketch.features.slots.length) = false := by
  have nonneg := Arena.index_nonneg_of_isLive live
  refine Arena.isLive_eq_false_of_length_le ?_
  simp only [Handle.moved]
  omega

/-- **A closed drawing is within each that comes from appending a closed one.** -/
theorem within_append {sketch other : Sketch α} (closed : sketch.Closed) (closed' : other.Closed) :
    sketch.Within (sketch.append other) (sketch.movedFeatures other)
      (sketch.movedConstraints other) where
  features_eq := by
    rw [Arena.items, features_append, Arena.itemsFrom_append, Nat.zero_add]
    rfl
  constraints_eq := by
    rw [Arena.items, constraints_append, Arena.itemsFrom_append, Nat.zero_add]
    rfl
  closed := closed
  feature_apart := by
    intro item listed r referred
    obtain ⟨item', member, moved⟩ := Arena.exists_of_mem_itemsFrom listed
    rw [moved] at referred
    obtain ⟨k, own, rfl⟩ := List.mem_map.mp referred
    exact isLive_moved (closed'.features item' member k own)
  constraint_apart := by
    intro item listed r referred
    obtain ⟨item', member, moved⟩ := Arena.exists_of_mem_itemsFrom listed
    rw [moved] at referred
    obtain ⟨k, own, rfl⟩ := List.mem_map.mp referred
    exact isLive_moved (closed'.constraints item' member k own)

namespace Within

variable {sketch joint : Sketch α} {features : List (Handle × Feature α)}
  {constraints : List (Handle × Constraint α)} {h r : Handle} {feature : Feature α}

section Lookups

variable (within : sketch.Within joint features constraints)

include within

theorem feature?_of_found (found : sketch.feature? h = some feature) :
    joint.feature? h = some feature := by
  refine Arena.mem_items_iff.mp ?_
  rw [within.features_eq]
  exact List.mem_append_left _ (Arena.mem_items_iff.mpr found)

theorem feature?_of_live (live : sketch.isLive h = true) :
    joint.feature? h = sketch.feature? h := by
  obtain ⟨feature, found⟩ := isLive_iff.mp live
  rw [found, within.feature?_of_found found]

theorem isLive_of_live (live : sketch.isLive h = true) : joint.isLive h = true := by
  obtain ⟨feature, found⟩ := isLive_iff.mp live
  exact isLive_iff.mpr ⟨feature, within.feature?_of_found found⟩

/-- What is added has no handle of the drawing. -/
theorem isLive_of_added (added : (h, feature) ∈ features) : sketch.isLive h = false := by
  have distinct := joint.features.nodup_handles
  rw [Arena.handles, within.features_eq, List.map_append, List.nodup_append'] at distinct
  rw [Bool.eq_false_iff]
  intro live
  exact distinct.2.2 (Arena.mem_handles_iff.mpr live) (List.mem_map_of_mem (f := (·.1)) added)

theorem constraint_isLive_of_added {constraint : Constraint α}
    (added : (h, constraint) ∈ constraints) : sketch.constraints.isLive h = false := by
  have distinct := joint.constraints.nodup_handles
  rw [Arena.handles, within.constraints_eq, List.map_append, List.nodup_append'] at distinct
  rw [Bool.eq_false_iff]
  intro live
  exact distinct.2.2 (Arena.mem_handles_iff.mpr live) (List.mem_map_of_mem (f := (·.1)) added)

theorem isLive_of_referred (found : sketch.feature? h = some feature)
    (referred : r ∈ feature.references) : sketch.isLive r = true :=
  within.closed.features (h, feature) (Arena.mem_items_iff.mpr found) r referred

/-- References from outside the drawing stay outside. -/
theorem outside_of_referred (outside : sketch.isLive h = false)
    (found : joint.feature? h = some feature) (referred : r ∈ feature.references) :
    sketch.isLive r = false := by
  have member := Arena.mem_items_iff.mpr found
  rw [within.features_eq, List.mem_append] at member
  rcases member with own | added
  · have live := isLive_iff.mpr ⟨feature, Arena.mem_items_iff.mp own⟩
    rw [outside] at live
    cases live
  · exact within.feature_apart _ added r referred

end Lookups

end Within

/-! ### Flaws of features -/

/-- The flaw is about nothing in the drawing. -/
structure Foreign (sketch : Sketch α) (flaw : Flaw α) : Prop where
  references : ∀ r ∈ flaw.references, sketch.isLive r = false
  constraint : ∀ h, flaw.constraint? = some h → sketch.constraints.isLive h = false

namespace Within

section FeatureFlaws

variable {sketch joint : Sketch α} {features : List (Handle × Feature α)}
  {constraints : List (Handle × Constraint α)} {feature : Feature α}
  (within : sketch.Within joint features constraints)

include within

/-- A feature of the drawing has the same faults in both. -/
theorem featureFaults_eq (live : ∀ r ∈ feature.references, sketch.isLive r = true) :
    joint.featureFaults feature = sketch.featureFaults feature := by
  have faults : ∀ kinds, List.zipWith joint.referenceFault? feature.references kinds =
      List.zipWith sketch.referenceFault? feature.references kinds := by
    intro kinds
    rw [← List.map_uncurry_zip_eq_zipWith, ← List.map_uncurry_zip_eq_zipWith]
    refine List.map_congr_left fun pair listed => ?_
    obtain ⟨target, found⟩ := isLive_iff.mp (live pair.1 (List.of_mem_zip listed).1)
    simp only [Function.uncurry, referenceFault?, within.feature?_of_found found, found]
  simp only [featureFaults, faults]

theorem featureFlaws_woven : Woven (Foreign sketch) sketch.featureFlaws joint.featureFlaws := by
  have own : (sketch.features.items.flatMap fun item =>
      (joint.featureFaults item.2).map (.feature item.1 item.2.kind item.2.references)) =
        sketch.featureFlaws :=
    List.flatMap_congr fun item listed => by
      rw [within.featureFaults_eq (within.closed.features item listed)]
  rw [featureFlaws.eq_1 joint, within.features_eq, List.flatMap_append]
  rw [own]
  refine .behind _ fun flaw flawed => ?_
  obtain ⟨⟨h, feature⟩, added, flawed⟩ := List.mem_flatMap.mp flawed
  obtain ⟨fault, -, rfl⟩ := List.mem_map.mp flawed
  refine ⟨List.forall_mem_cons.mpr ⟨within.isLive_of_added added,
    within.feature_apart _ added⟩, fun h none => by cases none⟩

end FeatureFlaws

end Within

end Sketch

/-! ### Circles of features -/

namespace Cycle.Search

/-- All handles on the path, and all that are still to be followed from it, are of one kind. -/
def On (K : Handle → Prop) (s : Search) : Prop :=
  ∀ step ∈ s.path, K step.owner ∧ ∀ r ∈ step.remaining, K r

section Keeping

variable {K : Handle → Prop} {s : Search} {step : Step} {outer : List Step} {h : Handle}
  {rest : List Handle}

theorem On.start (done : s.path = []) : s.On K := by
  intro step listed
  rw [done] at listed
  cases listed

theorem On.back (on : s.On K) (path : s.path = step :: outer) : On K { s with path := outer } :=
  fun _ listed => on _ (path ▸ List.mem_cons_of_mem step listed)

theorem On.next (on : s.On K) (path : s.path = step :: outer) (next : step.remaining = h :: rest) :
    K h ∧ On K { s with path := ⟨step.owner, rest⟩ :: outer } := by
  obtain ⟨owner, remaining⟩ := on step (path ▸ List.mem_cons_self)
  rw [next, List.forall_mem_cons] at remaining
  exact ⟨remaining.1, List.forall_mem_cons.mpr ⟨⟨owner, remaining.2⟩, on.back path⟩⟩

theorem path_report (s : Search) (cycle : List Handle) : (s.report cycle).path = s.path := by
  unfold report
  split <;> rfl

theorem cycles_report (s : Search) (cycle : List Handle) :
    (s.report cycle).cycles = s.cycles ∨ (s.report cycle).cycles = s.cycles ++ [cycle] := by
  unfold report
  split
  · exact .inl rfl
  · exact .inr rfl

theorem On.report (on : s.On K) (cycle : List Handle) : (s.report cycle).On K := by
  rw [On, path_report]
  exact on

theorem On.cycleFrom (on : s.On K) (h : Handle) : ∀ k ∈ s.cycleFrom h, K k := by
  intro k listed
  have onTrail := (List.dropWhile_sublist _).subset listed
  rw [trail, List.mem_reverse, List.mem_map] at onTrail
  obtain ⟨step, onPath, rfl⟩ := onTrail
  exact (on step onPath).1

variable {α : Type} {sketch : Sketch α}

theorem On.enter
    (closed : ∀ h feature, sketch.feature? h = some feature → K h → ∀ r ∈ feature.references, K r)
    (on : s.On K) (holds : K h) : (enter sketch s h).On K := by
  refine List.forall_mem_cons.mpr ⟨⟨holds, fun r referred => ?_⟩, on⟩
  cases found : sketch.feature? h with
  | none =>
    rw [found] at referred
    cases referred
  | some feature =>
    rw [found] at referred
    exact closed h feature found holds r referred

/-- The later search has come back to the start, and the circles that it has found meanwhile are of
one kind. -/
def Finds (K : Handle → Prop) (s later : Search) : Prop :=
  later.path = [] ∧ ∃ more, later.cycles = s.cycles ++ more ∧ ∀ cycle ∈ more, ∀ h ∈ cycle, K h

theorem Finds.of_report {later : Search} {cycle : List Handle} (holds : ∀ h ∈ cycle, K h)
    (finds : Finds K (s.report cycle) later) : Finds K s later := by
  obtain ⟨done, more, cycles, kind⟩ := finds
  rcases cycles_report s cycle with same | added
  · exact ⟨done, more, by rw [cycles, same], kind⟩
  · exact ⟨done, cycle :: more, by rw [cycles, added, List.append_assoc, List.singleton_append],
      List.forall_mem_cons.mpr ⟨holds, kind⟩⟩

/-- **Where references keep to one kind of handle, the search keeps to it**. -/
theorem finds_run
    (closed : ∀ h feature, sketch.feature? h = some feature → K h → ∀ r ∈ feature.references, K r)
    (s : Search) (on : s.On K) : Finds K s (run sketch s) := by
  fun_induction run sketch s with
  | case1 s done => exact ⟨done, [], by simp, by simp⟩
  | case2 s step outer path last ih => exact ih (on.back path)
  | case3 s step outer path h rest next s' dead ih => exact ih (on.next path next).2
  | case4 s step outer path h rest next s' alive onPath ih =>
    have found : Finds K s' _ :=
      Finds.of_report (on.cycleFrom h) (ih ((on.next path next).2.report _))
    exact found
  | case5 s step outer path h rest next s' alive offPath fresh ih =>
    obtain ⟨holds, on'⟩ := on.next path next
    exact ih (on'.enter closed holds)
  | case6 s step outer path h rest next s' alive offPath seen ih => exact ih (on.next path next).2

/-- The same from one handle after the other. -/
theorem finds_visits
    (closed : ∀ h feature, sketch.feature? h = some feature → K h → ∀ r ∈ feature.references, K r)
    (handles : List Handle) (kind : ∀ h ∈ handles, K h) (s : Search) (done : s.path = []) :
    Finds K s (handles.foldl (visit sketch) s) := by
  induction handles generalizing s with
  | nil => exact ⟨done, [], by simp, by simp⟩
  | cons h handles ih =>
    obtain ⟨holds, kind⟩ := List.forall_mem_cons.mp kind
    have first : Finds K s (visit sketch s h) := by
      unfold visit
      split
      · exact ⟨done, [], by simp, by simp⟩
      · exact finds_run closed _ ((On.start done).enter closed holds)
    obtain ⟨done', more, cycles, kind'⟩ := first
    obtain ⟨done'', more', cycles', kind''⟩ := ih kind _ done'
    refine ⟨done'', more ++ more', ?_, fun cycle listed => ?_⟩
    · rw [List.foldl_cons, cycles', cycles, List.append_assoc]
    · exact (List.mem_append.mp listed).elim (kind' cycle) (kind'' cycle)

end Keeping

section Joint

variable {α : Type} {sketch joint : Sketch α} {features : List (Handle × Feature α)}
  {constraints : List (Handle × Constraint α)}
  (within : sketch.Within joint features constraints)

include within

theorem enter_within {h : Handle} (live : sketch.isLive h = true) (s : Search) :
    enter joint s h = enter sketch s h := by
  rw [enter, enter, within.feature?_of_live live]

/-- **A search within the drawing goes the same way in the joint one.** -/
theorem run_within (s : Search) (on : s.On fun h => sketch.isLive h = true) :
    run joint s = run sketch s := by
  have closed : ∀ h feature, sketch.feature? h = some feature → sketch.isLive h = true →
      ∀ r ∈ feature.references, sketch.isLive r = true :=
    fun h feature found _ r referred => within.isLive_of_referred found referred
  fun_induction run sketch s with
  | case1 s done => exact run_done done
  | case2 s step outer path last ih =>
    rw [run_back path last]
    exact ih (on.back path)
  | case3 s step outer path h rest next s' dead ih =>
    rw [(on.next path next).1] at dead
    cases dead
  | case4 s step outer path h rest next s' alive onPath ih =>
    obtain ⟨live, on'⟩ := on.next path next
    rw [run_next path next, if_neg (by simp [within.isLive_of_live live]), if_pos onPath]
    exact ih (on'.report _)
  | case5 s step outer path h rest next s' alive offPath fresh ih =>
    obtain ⟨live, on'⟩ := on.next path next
    rw [run_next path next, if_neg (by simp [within.isLive_of_live live]), if_neg offPath,
      if_pos fresh, enter_within within live]
    exact ih (on'.enter closed live)
  | case6 s step outer path h rest next s' alive offPath seen ih =>
    obtain ⟨live, on'⟩ := on.next path next
    rw [run_next path next, if_neg (by simp [within.isLive_of_live live]), if_neg offPath,
      if_neg seen]
    exact ih on'

theorem visits_within (handles : List Handle)
    (live : ∀ h ∈ handles, sketch.isLive h = true) (s : Search) (done : s.path = []) :
    handles.foldl (visit joint) s = handles.foldl (visit sketch) s := by
  have closed : ∀ h feature, sketch.feature? h = some feature → sketch.isLive h = true →
      ∀ r ∈ feature.references, sketch.isLive r = true :=
    fun h feature found _ r referred => within.isLive_of_referred found referred
  induction handles generalizing s with
  | nil => rfl
  | cons h handles ih =>
    obtain ⟨liveH, live⟩ := List.forall_mem_cons.mp live
    have first : visit joint s h = visit sketch s h := by
      unfold visit
      split
      · rfl
      · rw [enter_within within liveH, run_within within _ ((On.start done).enter closed liveH)]
    have done' := (finds_visits closed [h] (by simpa using liveH) s done).1
    rw [List.foldl_cons, List.foldl_cons, first]
    exact ih live _ done'

end Joint

end Cycle.Search

namespace Sketch.Within

variable {α : Type} {sketch joint : Sketch α} {features : List (Handle × Feature α)}
  {constraints : List (Handle × Constraint α)}
  (within : sketch.Within joint features constraints)

include within

/-- The search for circles of a closed drawing meets its features alone. -/
theorem finds_own : Cycle.Search.Finds (fun h => sketch.isLive h = true) ⟨[], [], []⟩
    (sketch.features.handles.foldl (Cycle.Search.visit sketch) ⟨[], [], []⟩) :=
  Cycle.Search.finds_visits (fun _ _ found _ _ => within.isLive_of_referred found) _
    (fun _ listed => Arena.mem_handles_iff.mp listed) _ rfl

/-- The circles of the joint drawing are those of the drawing, and then others. -/
theorem cycles_eq : ∃ more, Cycle.all joint = Cycle.all sketch ++ more ∧
    ∀ cycle ∈ more, ∀ h ∈ cycle, sketch.isLive h = false := by
  have outside : ∀ h ∈ features.map (·.1), sketch.isLive h = false := by
    intro h listed
    obtain ⟨item, added, rfl⟩ := List.mem_map.mp listed
    exact within.isLive_of_added added
  have later : Cycle.Search.Finds (fun h => sketch.isLive h = false)
      (sketch.features.handles.foldl (Cycle.Search.visit sketch) ⟨[], [], []⟩)
      ((features.map (·.1)).foldl (Cycle.Search.visit joint)
        (sketch.features.handles.foldl (Cycle.Search.visit sketch) ⟨[], [], []⟩)) :=
    Cycle.Search.finds_visits (fun _ _ found beyond _ => within.outside_of_referred beyond found)
      _ outside _ within.finds_own.1
  obtain ⟨-, more, cycles, kind⟩ := later
  refine ⟨more, ?_, kind⟩
  rw [Cycle.all, Arena.handles, within.features_eq, List.map_append, List.foldl_append,
    ← Arena.handles, Cycle.Search.visits_within within _
      (fun _ listed => Arena.mem_handles_iff.mp listed) _ rfl, cycles, Cycle.all]

/-- Every circle of a closed drawing is one of its features. -/
theorem isLive_of_mem_cycle {cycle : List Handle} (listed : cycle ∈ Cycle.all sketch) {h : Handle}
    (member : h ∈ cycle) : sketch.isLive h = true := by
  obtain ⟨-, more, cycles, kind⟩ := within.finds_own
  rw [Cycle.all, cycles] at listed
  exact kind cycle listed h member

theorem cycleFlaws_woven : Woven (Foreign sketch) sketch.cycleFlaws joint.cycleFlaws := by
  obtain ⟨more, cycles, outside⟩ := within.cycles_eq
  rw [cycleFlaws.eq_1 joint, cycles, List.filterMap_append]
  refine .behind _ fun flaw flawed => ?_
  obtain ⟨cycle, listed, noted⟩ := List.mem_filterMap.mp flawed
  cases cycle with
  | nil => cases noted
  | cons first others =>
    obtain rfl := Option.some.inj noted
    exact ⟨outside _ listed, fun h none => by cases none⟩

end Sketch.Within

/-! ### Broken features -/

namespace Sketch

variable {α : Type} {sketch joint : Sketch α} {features : List (Handle × Feature α)}
  {constraints : List (Handle × Constraint α)} {broken others : List Handle} {h : Handle}

/-- The broken features are the fewest that hold those broken from the start and all that is built
on one of them or on nothing. -/
theorem spreadBroken_subset (subset : broken ⊆ others) (done : sketch.nextBroken? others = none) :
    sketch.spreadBroken broken ⊆ others := by
  fun_induction sketch.spreadBroken broken with
  | case1 => exact subset
  | case2 broken h next ih =>
    refine ih (List.cons_subset.mpr ⟨?_, subset⟩)
    obtain ⟨⟨h, feature⟩, found, rfl⟩ := Option.map_eq_some_iff.mp next
    have unsound := List.find?_some found
    simp only [Bool.and_eq_true, List.any_eq_true, Bool.or_eq_true, Bool.not_eq_true'] at unsound
    obtain ⟨-, r, referred, unfit⟩ := unsound
    by_contra sound
    obtain ⟨fit, live⟩ := nextBroken?_eq_none_iff.mp done _ (List.mem_of_find?_eq_some found) sound
      r referred
    rcases unfit with within | dead
    · exact fit (subset (by simpa using within))
    · rw [live] at dead
      cases dead

/-- The owner of a foreign flaw is no feature of the drawing. -/
theorem Foreign.outside {flaw : Flaw α} (foreign : Foreign sketch flaw)
    (owner : flaw.feature? = some h) : sketch.isLive h = false :=
  foreign.references h (Flaw.mem_references_of_owner owner)

namespace Within

variable {flaws more : List (Flaw α)} (within : sketch.Within joint features constraints)
  (woven : Woven (Foreign sketch) flaws more)

include within woven

theorem brokenFeatures_subset : sketch.brokenFeatures flaws ⊆ joint.brokenFeatures more := by
  refine spreadBroken_subset (fun h owner => ?_) (nextBroken?_eq_none_iff.mpr ?_)
  · obtain ⟨flaw, flawed, owner⟩ := List.mem_filterMap.mp owner
    exact mem_brokenFeatures_of_flaw (woven.subset flawed) owner
  · intro item listed sound r referred
    have listed' : item ∈ joint.features.items := by
      rw [within.features_eq]
      exact List.mem_append_left _ listed
    exact ⟨(nextBroken?_eq_none_iff.mp nextBroken?_spreadBroken item listed' sound r referred).1,
      within.closed.features item listed r referred⟩

/-- **A feature of the drawing is broken in both or in none.** -/
theorem mem_brokenFeatures_iff (live : sketch.isLive h = true) :
    h ∈ joint.brokenFeatures more ↔ h ∈ sketch.brokenFeatures flaws := by
  refine ⟨fun broken => ?_, fun broken => within.brokenFeatures_subset woven broken⟩
  -- what is broken in the joint drawing, but for features of the drawing that are sound in it
  let others := (joint.brokenFeatures more).filter fun k =>
    !sketch.isLive k || (sketch.brokenFeatures flaws).contains k
  have mem_others : ∀ k, k ∈ others ↔ k ∈ joint.brokenFeatures more ∧
      (sketch.isLive k = true → k ∈ sketch.brokenFeatures flaws) := by
    intro k
    cases alive : sketch.isLive k <;> simp [others, alive]
  have all : joint.brokenFeatures more ⊆ others := by
    refine spreadBroken_subset (fun k owner => ?_) (nextBroken?_eq_none_iff.mpr ?_)
    · obtain ⟨flaw, flawed, owner⟩ := List.mem_filterMap.mp owner
      refine (mem_others k).mpr ⟨mem_brokenFeatures_of_flaw flawed owner, fun alive => ?_⟩
      rcases woven.mem_cases flawed with own | foreign
      · exact mem_brokenFeatures_of_flaw own owner
      · rw [foreign.outside owner] at alive
        cases alive
    · rintro ⟨k, feature⟩ listed sound r referred
      have found := Arena.mem_items_iff.mp listed
      rw [mem_others] at sound
      by_cases broken' : k ∈ joint.brokenFeatures more
      · obtain ⟨alive, fit⟩ : sketch.isLive k = true ∧ k ∉ sketch.brokenFeatures flaws := by
          simpa [broken'] using sound
        rw [← feature?, within.feature?_of_live alive] at found
        obtain ⟨fit', alive'⟩ := sound_references found fit r referred
        exact ⟨fun member => fit' (((mem_others r).mp member).2 alive'),
          within.isLive_of_live alive'⟩
      · obtain ⟨fit', alive'⟩ := sound_references found broken' r referred
        exact ⟨fun member => fit' ((mem_others r).mp member).1, alive'⟩
  exact ((mem_others h).mp (all broken)).2 live

end Within

/-! ### All flaws -/

namespace Within

variable [Scalar α] (within : sketch.Within joint features constraints)

include within

/-- A constraint of the drawing has the same fault in both. -/
theorem constraintFault?_eq (same : ∀ r, sketch.isLive r = true → (r ∈ others ↔ r ∈ broken))
    {constraint : Constraint α} (live : ∀ r ∈ constraint.references, sketch.isLive r = true) :
    joint.constraintFault? others constraint = sketch.constraintFault? broken constraint := by
  have dead : constraint.references.find? (fun r => !sketch.isLive r) = none :=
    List.find?_eq_none.mpr fun r referred => by simp [live r referred]
  have dead' : constraint.references.find? (fun r => !joint.isLive r) = none :=
    List.find?_eq_none.mpr fun r referred => by simp [within.isLive_of_live (live r referred)]
  have unfit : constraint.references.find? others.contains =
      constraint.references.find? broken.contains :=
    List.find?_congr fun r referred => by
      rw [Bool.eq_iff_iff, List.contains_iff_mem, List.contains_iff_mem, same r (live r referred)]
  have kinds : (constraint.references.filterMap fun r => (joint.feature? r).map (·.kind)) =
      constraint.references.filterMap fun r => (sketch.feature? r).map (·.kind) :=
    List.filterMap_congr fun r referred => by rw [within.feature?_of_live (live r referred)]
  simp only [constraintFault?, dead, dead', unfit, kinds]

/-- **The flaws of the drawing are among those of the joint one**, in order, and all others are
foreign. -/
theorem flaws_woven : Woven (Foreign sketch) sketch.flaws joint.flaws := by
  have features := within.featureFlaws_woven.append within.cycleFlaws_woven
  refine features.append ?_
  have own : (sketch.constraints.items.filterMap fun item =>
      (joint.constraintFault? (joint.brokenFeatures (joint.featureFlaws ++ joint.cycleFlaws))
        item.2).map (.constraint item.1 item.2.kind item.2.references)) =
      sketch.constraintFlaws
        (sketch.brokenFeatures (sketch.featureFlaws ++ sketch.cycleFlaws)) :=
    List.filterMap_congr fun item listed => by
      rw [within.constraintFault?_eq (fun r live => within.mem_brokenFeatures_iff features live)
        (within.closed.constraints item listed)]
  rw [constraintFlaws.eq_1 joint, within.constraints_eq, List.filterMap_append, own]
  refine .behind _ fun flaw flawed => ?_
  obtain ⟨⟨h, constraint⟩, added, flawed⟩ := List.mem_filterMap.mp flawed
  obtain ⟨fault, -, rfl⟩ := Option.map_eq_some_iff.mp flawed
  refine ⟨within.constraint_apart _ added, fun k owner => ?_⟩
  obtain rfl := Option.some.inj owner
  exact within.constraint_isLive_of_added added

/-- The flaws of a closed drawing touch its features alone. -/
theorem isLive_of_flaw {flaw : Flaw α} (flawed : flaw ∈ sketch.flaws) :
    ∀ r ∈ flaw.references, sketch.isLive r = true := by
  rw [flaws, List.mem_append, List.mem_append] at flawed
  rcases flawed with (single | circle) | single
  · obtain ⟨⟨h, feature⟩, listed, faulty⟩ := List.mem_flatMap.mp single
    obtain ⟨fault, -, rfl⟩ := List.mem_map.mp faulty
    exact List.forall_mem_cons.mpr ⟨Arena.mem_handles_iff.mp (List.mem_map_of_mem listed),
      within.closed.features _ listed⟩
  · obtain ⟨cycle, listed, noted⟩ := List.mem_filterMap.mp circle
    cases cycle with
    | nil => cases noted
    | cons first others =>
      obtain rfl := Option.some.inj noted
      exact fun r member => within.isLive_of_mem_cycle listed member
  · obtain ⟨⟨h, constraint⟩, listed, faulty⟩ := List.mem_filterMap.mp single
    obtain ⟨fault, -, rfl⟩ := Option.map_eq_some_iff.mp faulty
    exact within.closed.constraints _ listed

end Within

end Sketch

end PlaneSketch
