import Mathlib.Data.List.Forall2
import PlaneSketch.Validation

/-!
What a drawing without flaws looks like.

* `Built` describes a feature that can be turned into equations: it has the number of references
  that its kind needs, all different, and each names a point.
* `built_of_unbroken`: every live feature outside the broken ones is so built.
* `Fit` describes such a constraint: its references are features so built, all different, of kinds
  that fit one of its forms, and its numbers have no fault.
* `fit_of_not_flawed`: every live constraint without a flaw is fit.
-/

namespace PlaneSketch

/-- Kinds are accepted when they fit one of the forms, place by place. -/
theorem ConstraintKind.accepts_iff {kind : ConstraintKind} {kinds : List FeatureKind} :
    kind.accepts kinds = true ↔
      ∃ form ∈ kind.forms, List.Forall₂ (fun fits kind => fits kind = true) form kinds := by
  rw [ConstraintKind.accepts, List.any_eq_true]
  have fits : ∀ (form : List (FeatureKind → Bool)) (kinds : List FeatureKind),
      (decide (form.length = kinds.length) &&
        (List.zipWith (fun fits kind => fits kind) form kinds).all id) = true ↔
      List.Forall₂ (fun fits kind => fits kind = true) form kinds := by
    intro form
    induction form with
    | nil => intro kinds; cases kinds <;> simp
    | cons first form ih =>
      intro kinds
      cases kinds with
      | nil => simp
      | cons kind kinds =>
        have rest := ih kinds
        simp only [Bool.and_eq_true, decide_eq_true_eq] at rest ⊢
        simp [List.forall₂_cons, ← rest]
        tauto
  exact exists_congr fun form => and_congr_right fun _ => fits form kinds

theorem Flaw.mem_references_of_owner {α : Type} {flaw : Flaw α} {h : Handle}
    (owner : flaw.feature? = some h) : h ∈ flaw.references := by
  cases flaw with
  | feature k _ _ _ =>
    obtain rfl : k = h := by simpa [Flaw.feature?] using owner
    exact List.mem_cons_self
  | cycle first _ =>
    obtain rfl : first = h := by simpa [Flaw.feature?] using owner
    exact List.mem_cons_self
  | constraint _ _ _ _ => simp [Flaw.feature?] at owner

namespace Sketch

variable {α : Type}

/-- The handle names a point. -/
def Point (sketch : Sketch α) (h : Handle) : Prop :=
  ∃ feature, sketch.feature? h = some feature ∧ feature.kind = .point

/-- The handle names a feature of a kind that is built on the given points, all different and as
many as the kind needs. -/
structure Built (sketch : Sketch α) (h : Handle) (kind : FeatureKind) (parts : List Handle) :
    Prop where
  feature : ∃ feature, sketch.feature? h = some feature ∧ feature.kind = kind ∧
    feature.references = parts
  count : parts.length = kind.parts.length
  distinct : parts.Nodup
  points : ∀ p ∈ parts, sketch.Point p

theorem isLive_iff {sketch : Sketch α} {h : Handle} :
    sketch.isLive h = true ↔ ∃ feature, sketch.feature? h = some feature := by
  rw [isLive, Arena.isLive, feature?, Option.isSome_iff_exists]

theorem distinct_iff {handles : List Handle} : distinct handles = true ↔ handles.Nodup := by
  induction handles with
  | nil => simp [Sketch.distinct]
  | cons h rest ih => simp [Sketch.distinct, ih]

/-! ### Broken features -/

section Broken

variable {sketch : Sketch α} {broken : List Handle} {h : Handle}

theorem mem_spreadBroken_of_mem (member : h ∈ broken) : h ∈ sketch.spreadBroken broken := by
  fun_induction sketch.spreadBroken broken with
  | case1 => exact member
  | case2 broken k _ ih => exact ih (List.mem_cons_of_mem k member)

/-- Nothing outside the broken features is built on a broken feature or on nothing. -/
theorem nextBroken?_spreadBroken : sketch.nextBroken? (sketch.spreadBroken broken) = none := by
  fun_induction sketch.spreadBroken broken with
  | case1 broken none => exact none
  | case2 broken k _ ih => exact ih

theorem nextBroken?_eq_none_iff : sketch.nextBroken? broken = none ↔
    ∀ item ∈ sketch.features.items, item.1 ∉ broken →
      ∀ r ∈ item.2.references, r ∉ broken ∧ sketch.isLive r = true := by
  rw [nextBroken?, Option.map_eq_none_iff, List.find?_eq_none]
  simp

/-- **What is sound refers to sound features only.** -/
theorem sound_references {flaws : List (Flaw α)} {feature : Feature α}
    (found : sketch.feature? h = some feature) (sound : h ∉ sketch.brokenFeatures flaws) :
    ∀ r ∈ feature.references, r ∉ sketch.brokenFeatures flaws ∧ sketch.isLive r = true :=
  nextBroken?_eq_none_iff.mp nextBroken?_spreadBroken _ (Arena.mem_items_iff.mpr found) sound

theorem mem_brokenFeatures_of_flaw {flaws : List (Flaw α)} {flaw : Flaw α} (member : flaw ∈ flaws)
    (owner : flaw.feature? = some h) : h ∈ sketch.brokenFeatures flaws :=
  mem_spreadBroken_of_mem (List.mem_filterMap.mpr ⟨flaw, member, owner⟩)

/-- What is found broken was so from the start, or refers to a broken feature or to none. -/
theorem cases_of_mem_spreadBroken (member : h ∈ sketch.spreadBroken broken) :
    h ∈ broken ∨ ∃ feature, sketch.feature? h = some feature ∧
      ∃ r ∈ feature.references, r ∈ sketch.spreadBroken broken ∨ sketch.isLive r = false := by
  fun_induction sketch.spreadBroken broken with
  | case1 broken none => exact .inl member
  | case2 broken k next ih =>
    rcases ih member with old | built
    · rcases List.mem_cons.mp old with rfl | before
      · obtain ⟨⟨k, feature⟩, found, rfl⟩ := Option.map_eq_some_iff.mp next
        have unsound := List.find?_some found
        simp only [Bool.and_eq_true, List.any_eq_true, Bool.or_eq_true, Bool.not_eq_true']
          at unsound
        obtain ⟨-, r, listed, unfit⟩ := unsound
        refine .inr ⟨feature, Arena.mem_items_iff.mp (List.mem_of_find?_eq_some found), r, listed,
          unfit.imp_left fun within => ?_⟩
        exact mem_spreadBroken_of_mem (List.mem_cons_of_mem k (by simpa using within))
      · exact .inl before
    · exact .inr built

/-- Without flaws nothing is broken unless it is built on nothing. -/
theorem brokenFeatures_eq_nil (none : sketch.nextBroken? [] = none) :
    sketch.brokenFeatures [] = [] := by
  show sketch.spreadBroken [] = []
  rw [spreadBroken]
  split
  · rfl
  · rename_i next
    rw [none] at next
    cases next

end Broken

/-! ### Features without a fault -/

section Features

variable {sketch : Sketch α} {h : Handle} {feature : Feature α}

theorem referenceFault?_eq_none_iff {expected : FeatureKind} :
    sketch.referenceFault? h expected = none ↔
      ∃ feature, sketch.feature? h = some feature ∧ feature.kind = expected := by
  rw [referenceFault?]
  cases sketch.feature? h with
  | none => simp
  | some target => simp

/-- All features are built on points. -/
theorem eq_point_of_mem_parts {kind part : FeatureKind} (listed : part ∈ kind.parts) :
    part = .point := by
  cases kind <;> simp [FeatureKind.parts] at listed <;> exact listed

theorem built_of_featureFaults_eq_nil (found : sketch.feature? h = some feature)
    (faultless : sketch.featureFaults feature = []) :
    sketch.Built h feature.kind feature.references := by
  rw [featureFaults] at faultless
  split at faultless
  · cases faultless
  · rename_i count
    rw [ne_eq, not_not] at count
    obtain ⟨references, distinct⟩ := List.append_eq_nil_iff.mp faultless
    refine ⟨⟨feature, found, rfl, rfl⟩, count, ?_, ?_⟩
    · by_contra repeated
      rw [← distinct_iff] at repeated
      simp [repeated] at distinct
    · intro p listed
      obtain ⟨i, bound, rfl⟩ := List.mem_iff_getElem.mp listed
      have bound' : i < feature.kind.parts.length := by omega
      have checked := List.filterMap_eq_nil_iff.mp references
        (sketch.referenceFault? feature.references[i] feature.kind.parts[i])
        (List.mem_iff_getElem.mpr ⟨i, by simp; omega, by simp⟩)
      obtain ⟨point, live, kind⟩ := referenceFault?_eq_none_iff.mp checked
      exact ⟨point, live, kind.trans (eq_point_of_mem_parts (List.getElem_mem bound'))⟩

theorem mem_featureFlaws_of_fault (found : sketch.feature? h = some feature)
    {fault : FeatureFault} (faulty : fault ∈ sketch.featureFaults feature) :
    .feature h feature.kind feature.references fault ∈ sketch.featureFlaws :=
  List.mem_flatMap.mpr
    ⟨(h, feature), Arena.mem_items_iff.mpr found, List.mem_map.mpr ⟨fault, faulty, rfl⟩⟩

/-- A point that refers to anything has a flaw. -/
theorem exists_featureFlaw_of_point (found : sketch.feature? h = some feature)
    (point : feature.kind = .point) (built : feature.references ≠ []) :
    ∃ flaw ∈ sketch.featureFlaws, flaw.feature? = some h := by
  have count : feature.references.length ≠ feature.kind.parts.length := by
    rw [point]
    simpa [FeatureKind.parts] using built
  have faulty : .count feature.kind.parts.length feature.references.length ∈
      sketch.featureFaults feature := by
    rw [featureFaults, if_pos count]
    exact List.mem_cons_self
  exact ⟨_, mem_featureFlaws_of_fault found faulty, rfl⟩

/-- The flaws of features belong to no constraint. -/
theorem constraint?_of_featureFlaw {flaw : Flaw α}
    (listed : flaw ∈ sketch.featureFlaws ++ sketch.cycleFlaws) : flaw.constraint? = none := by
  rcases List.mem_append.mp listed with single | circle
  · obtain ⟨⟨k, feature⟩, -, faulty⟩ := List.mem_flatMap.mp single
    obtain ⟨fault, -, rfl⟩ := List.mem_map.mp faulty
    rfl
  · obtain ⟨cycle, -, noted⟩ := List.mem_filterMap.mp circle
    cases cycle with
    | nil => cases noted
    | cons first others =>
      obtain rfl := Option.some.inj noted
      rfl

end Features

variable [Scalar α]

section Unbroken

variable {sketch : Sketch α} {h : Handle}

/-- **A live feature that is not broken is built on different points**, as many as its kind
needs. -/
theorem built_of_unbroken {feature : Feature α} (found : sketch.feature? h = some feature)
    (sound : h ∉ sketch.brokenFeatures sketch.flaws) :
    sketch.Built h feature.kind feature.references := by
  apply built_of_featureFaults_eq_nil found
  rw [List.eq_nil_iff_forall_not_mem]
  intro fault faulty
  have flawed := mem_featureFlaws_of_fault found faulty
  exact sound (mem_brokenFeatures_of_flaw
    (List.mem_append_left _ (List.mem_append_left _ flawed)) rfl)

/-- **A broken feature has a flaw, or is built on different points of which one has.** Nothing is
broken further away than that, since features are built on points and points on nothing. -/
theorem flaw_of_broken {feature : Feature α} (found : sketch.feature? h = some feature)
    (broken : h ∈ sketch.brokenFeatures sketch.flaws) :
    (∃ flaw ∈ sketch.flaws, flaw.feature? = some h) ∨
      sketch.Built h feature.kind feature.references ∧
        ∃ p ∈ feature.references, ∃ flaw ∈ sketch.flaws, flaw.feature? = some p := by
  by_cases flawless : sketch.featureFaults feature = []
  · rcases cases_of_mem_spreadBroken broken with owner | ⟨feature', found', p, listed, unfit⟩
    · exact .inl (List.mem_filterMap.mp owner)
    · obtain rfl : feature' = feature := by simpa [found] using found'.symm
      have built := built_of_featureFaults_eq_nil found flawless
      obtain ⟨point, live, kind⟩ := built.points p listed
      have broken' := unfit.resolve_right (by simp [isLive_iff.mpr ⟨point, live⟩])
      refine .inr ⟨built, p, listed, ?_⟩
      rcases cases_of_mem_spreadBroken broken' with owner | ⟨point', live', r, below, -⟩
      · exact List.mem_filterMap.mp owner
      · obtain rfl : point' = point := by simpa [live] using live'.symm
        obtain ⟨flaw, flawed, owner⟩ :=
          exists_featureFlaw_of_point live kind (List.ne_nil_of_mem below)
        exact ⟨flaw, List.mem_append_left _ (List.mem_append_left _ flawed), owner⟩
  · obtain ⟨fault, faulty⟩ := List.exists_mem_of_ne_nil _ flawless
    have flawed := mem_featureFlaws_of_fault found faulty
    exact .inl ⟨_, List.mem_append_left _ (List.mem_append_left _ flawed), rfl⟩

/-- The flaws of constraints break no feature. -/
theorem brokenFeatures_flaws :
    sketch.brokenFeatures sketch.flaws =
      sketch.brokenFeatures (sketch.featureFlaws ++ sketch.cycleFlaws) := by
  have none : (sketch.constraintFlaws
      (sketch.brokenFeatures (sketch.featureFlaws ++ sketch.cycleFlaws))).filterMap
        Flaw.feature? = [] := by
    rw [List.filterMap_eq_nil_iff]
    intro flaw member
    obtain ⟨⟨k, constraint⟩, -, flawed⟩ := List.mem_filterMap.mp member
    obtain ⟨fault, -, rfl⟩ := Option.map_eq_some_iff.mp flawed
    rfl
  rw [brokenFeatures, brokenFeatures, flaws, List.filterMap_append, none, List.append_nil]

/-- Without flaws no feature is broken. -/
theorem brokenFeatures_eq_nil_of_flaws_eq_nil (flawless : sketch.flaws = []) :
    sketch.brokenFeatures [] = [] := by
  apply brokenFeatures_eq_nil
  rw [nextBroken?, Option.map_eq_none_iff, List.find?_eq_none]
  rintro ⟨k, feature⟩ member
  have found := Arena.mem_items_iff.mp member
  have faultless : sketch.featureFaults feature = [] := by
    rw [List.eq_nil_iff_forall_not_mem]
    intro fault faulty
    have flawed := mem_featureFlaws_of_fault found faulty
    rw [flaws, List.append_eq_nil_iff, List.append_eq_nil_iff] at flawless
    rw [flawless.1.1] at flawed
    cases flawed
  have built := built_of_featureFaults_eq_nil found faultless
  simp only [Bool.and_eq_true, List.any_eq_true, Bool.or_eq_true, not_and, not_exists, not_or]
  intro _ r listed
  obtain ⟨point, live, -⟩ := built.points r listed
  simp [isLive_iff.mpr ⟨point, live⟩]

end Unbroken

/-! ### Constraints without a fault -/

/-- The constraint can be turned into equations: it refers to different features, each built on
points, whose kinds fit a form of the constraint, and its numbers have no fault. -/
structure Fit (sketch : Sketch α) (constraint : Constraint α) (kinds : List FeatureKind) :
    Prop where
  references : List.Forall₂ (fun r kind => ∃ parts, sketch.Built r kind parts)
    constraint.references kinds
  accepted : constraint.kind.accepts kinds = true
  distinct : constraint.references.Nodup
  values : valueFault? constraint = none

section Fitting

variable {sketch : Sketch α} {h : Handle} {constraint : Constraint α}

omit [Scalar α] in
theorem forall₂_kinds {references : List Handle} {P : Handle → FeatureKind → Prop}
    (live : ∀ r ∈ references, ∃ feature, sketch.feature? r = some feature ∧ P r feature.kind) :
    List.Forall₂ P references
      (references.filterMap fun r => (sketch.feature? r).map (·.kind)) := by
  induction references with
  | nil => exact .nil
  | cons r rest ih =>
    obtain ⟨feature, found, holds⟩ := live r List.mem_cons_self
    simp only [List.filterMap_cons, found, Option.map_some]
    exact .cons holds (ih fun s listed => live s (List.mem_cons_of_mem r listed))

theorem fit_of_constraintFault?_eq_none
    (faultless : sketch.constraintFault? (sketch.brokenFeatures sketch.flaws) constraint = none) :
    ∃ kinds, sketch.Fit constraint kinds := by
  rw [constraintFault?] at faultless
  split at faultless
  · cases faultless
  · rename_i live
    split at faultless
    · cases faultless
    · rename_i distinct
      split at faultless
      · cases faultless
      · rename_i unbroken
        dsimp only at faultless
        split at faultless
        · rename_i accepted
          refine ⟨_, forall₂_kinds fun r listed => ?_, accepted, ?_, faultless⟩
          · have alive := List.find?_eq_none.mp live r listed
            obtain ⟨feature, found⟩ := isLive_iff.mp (by simpa using alive)
            have sound := List.find?_eq_none.mp unbroken r listed
            exact ⟨feature, found, feature.references,
              built_of_unbroken found (by simpa using sound)⟩
          · rw [← distinct_iff]
            simpa using distinct
        · cases faultless

/-- A live constraint without a flaw has no fault. -/
theorem constraintFault?_eq_none_of_not_flawed (found : sketch.constraints.get? h = some constraint)
    (sound : h ∉ sketch.flaws.filterMap Flaw.constraint?) :
    sketch.constraintFault? (sketch.brokenFeatures sketch.flaws) constraint = none := by
  cases fault : sketch.constraintFault? (sketch.brokenFeatures sketch.flaws) constraint with
  | none => rfl
  | some fault' =>
    rw [brokenFeatures_flaws] at fault
    have flawed : .constraint h constraint.kind constraint.references fault' ∈ sketch.flaws :=
      List.mem_append_right _ (List.mem_filterMap.mpr
        ⟨(h, constraint), Arena.mem_items_iff.mpr found, Option.map_eq_some_iff.mpr
          ⟨fault', fault, rfl⟩⟩)
    have owner : h ∈ sketch.flaws.filterMap Flaw.constraint? :=
      List.mem_filterMap.mpr ⟨_, flawed, rfl⟩
    exact absurd owner sound

/-- **A live constraint without a flaw is fit.** -/
theorem fit_of_not_flawed (found : sketch.constraints.get? h = some constraint)
    (sound : h ∉ sketch.flaws.filterMap Flaw.constraint?) :
    ∃ kinds, sketch.Fit constraint kinds :=
  fit_of_constraintFault?_eq_none (constraintFault?_eq_none_of_not_flawed found sound)

end Fitting

end Sketch

end PlaneSketch
