import Mathlib
import PlaneSketch.Proofs.Accounts
import PlaneSketch.Proofs.Cycles

/-!
What validation accepts.

Faults of single features, circles and what is built on either decide together which features are
broken. What they leave can be said of a feature and its parts alone.

* `Sketch.WellFormed`: a feature is built on as many points as its kind needs, all different, that
  refer to nothing themselves. These are the features that are not broken.
* `Sketch.Acceptable`: a constraint refers to such features only, all different, of kinds that it
  takes, and its numbers are there and in range. These are the constraints without a flaw.
* `validates`: both, for every drawing, and what a strict validation stops at.
-/

namespace PlaneSketch

/-! ### Kinds -/

namespace FeatureKind

/-- The number of points that a feature is built on. -/
def arity : FeatureKind → Nat
  | point => 0
  | line => 2
  | circle => 1
  | arc => 3
  | gear => 1

theorem arity_eq (kind : FeatureKind) : kind.arity = kind.parts.length := by
  cases kind <;> rfl

/-- Circles and arcs. -/
def Round (kind : FeatureKind) : Prop := kind = .circle ∨ kind = .arc

theorem isRound_iff {kind : FeatureKind} : kind.isRound = true ↔ kind.Round := by
  cases kind <;> simp [isRound, Round]

end FeatureKind

namespace ConstraintKind

/-- The kinds of features that a constraint can be about. -/
inductive Takes : ConstraintKind → List FeatureKind → Prop
  | fixed : Takes .fixed [.point]
  | lengthOfLine : Takes .length [.line]
  | lengthOfPoints : Takes .length [.point, .point]
  | radius {k : FeatureKind} : k.Round → Takes .radius [k]
  | radiusEqual {k l : FeatureKind} : k.Round → l.Round → Takes .radiusEqual [k, l]
  | parallel : Takes .parallel [.line, .line]
  | perpendicular : Takes .perpendicular [.line, .line]
  | heading : Takes .angle [.line]
  | turn : Takes .angle [.line, .line]
  | coincident : Takes .coincident [.point, .point]
  | onLine : Takes .coincident [.point, .line]
  | onRound {k : FeatureKind} : k.Round → Takes .coincident [.point, k]
  | reflected : Takes .symmetric [.point, .point, .line]
  | midpoint : Takes .symmetric [.point, .point, .point]
  | alongAxis : Takes .alongAxis [.line]
  | lerp : Takes .lerp [.point, .line]
  | equalLength : Takes .equalLength [.line, .line]

variable {kind : ConstraintKind} {kinds : List FeatureKind}

theorem isPoint_iff {k : FeatureKind} : forms.isPoint k = true ↔ k = .point := by
  simp [forms.isPoint]

theorem isLine_iff {k : FeatureKind} : forms.isLine k = true ↔ k = .line := by
  simp [forms.isLine]

/-- What fits a form is taken. -/
theorem takes_of_fits {form : List (FeatureKind → Bool)} (listed : form ∈ kind.forms)
    (fits : List.Forall₂ (fun fits k => fits k = true) form kinds) : kind.Takes kinds := by
  cases kind with
  | radius =>
    obtain rfl := List.mem_singleton.mp listed
    obtain ⟨k, round, rfl⟩ := eq_of_forall₂_one fits
    exact .radius (FeatureKind.isRound_iff.mp round)
  | radiusEqual =>
    obtain rfl := List.mem_singleton.mp listed
    obtain ⟨k, l, first, second, rfl⟩ := eq_of_forall₂_two fits
    exact .radiusEqual (FeatureKind.isRound_iff.mp first) (FeatureKind.isRound_iff.mp second)
  | coincident =>
    obtain rfl := List.mem_singleton.mp listed
    obtain ⟨p, k, point, other, rfl⟩ := eq_of_forall₂_two fits
    obtain rfl := isPoint_iff.mp point
    cases k with
    | point => exact .coincident
    | line => exact .onLine
    | circle => exact .onRound (.inl rfl)
    | arc => exact .onRound (.inr rfl)
    | gear => simp at other
  -- points and lines only, in one form or in either of two
  | fixed | parallel | perpendicular | alongAxis | lerp | equalLength =>
    obtain rfl := List.mem_singleton.mp listed
    simp [List.forall₂_cons_left_iff, isPoint_iff, isLine_iff] at fits
    subst fits
    constructor
  | length | angle | symmetric =>
    simp only [forms, List.mem_cons, List.not_mem_nil, or_false] at listed
    rcases listed with rfl | rfl
    all_goals
      simp [List.forall₂_cons_left_iff, isPoint_iff, isLine_iff] at fits
      subst fits
      constructor

/-- **The kinds that are accepted are those that the constraint takes.** -/
theorem accepts_iff_takes : kind.accepts kinds = true ↔ kind.Takes kinds := by
  rw [accepts_iff]
  constructor
  · rintro ⟨form, listed, fits⟩
    exact takes_of_fits listed fits
  · intro takes
    cases takes with
    | onRound round =>
      rcases round with rfl | rfl <;> simp [forms, isPoint_iff]
    | _ => simp_all [forms, isPoint_iff, isLine_iff, FeatureKind.isRound_iff]

end ConstraintKind

namespace Sketch

variable {α : Type} {sketch : Sketch α} {h : Handle} {feature : Feature α}

/-! ### Features -/

/-- The handle names a point that refers to nothing. -/
def BarePoint (sketch : Sketch α) (h : Handle) : Prop :=
  ∃ feature, sketch.feature? h = some feature ∧ feature.kind = .point ∧ feature.references = []

/-- A feature with as many references as its kind needs, all different, to points that refer to
nothing. -/
structure WellFormed (sketch : Sketch α) (feature : Feature α) : Prop where
  count : feature.references.length = feature.kind.arity
  distinct : feature.references.Nodup
  points : ∀ p ∈ feature.references, sketch.BarePoint p

/-- A well-formed feature has no fault of its own. -/
theorem WellFormed.featureFaults_eq_nil (formed : sketch.WellFormed feature) :
    sketch.featureFaults feature = [] := by
  have count : feature.references.length = feature.kind.parts.length := by
    rw [formed.count, FeatureKind.arity_eq]
  rw [featureFaults, if_neg (not_not.mpr count), if_pos (distinct_iff.mpr formed.distinct),
    List.append_nil, List.filterMap_eq_nil_iff]
  intro fault listed
  obtain ⟨i, bound, rfl⟩ := List.mem_iff_getElem.mp listed
  rw [List.length_zipWith] at bound
  obtain ⟨point, live, kind, -⟩ := formed.points _ (List.getElem_mem (show i < _ by omega))
  rw [List.getElem_zipWith, id_eq, referenceFault?_eq_none_iff]
  exact ⟨point, live, kind.trans (eq_point_of_mem_parts (List.getElem_mem _)).symm⟩

/-- A point that refers to nothing is well formed. -/
theorem BarePoint.wellFormed (bare : sketch.BarePoint h) :
    ∃ feature, sketch.feature? h = some feature ∧ sketch.WellFormed feature := by
  obtain ⟨feature, found, kind, references⟩ := bare
  refine ⟨feature, found, ?_, ?_, ?_⟩
  · rw [references, kind]
    rfl
  · rw [references]
    exact List.nodup_nil
  · rw [references]
    simp

/-- What refers to points that refer to nothing is on no circle: the next feature on it would refer
to another one. -/
theorem WellFormed.not_transGen (formed : sketch.WellFormed feature)
    (found : sketch.feature? h = some feature) : ¬Relation.TransGen sketch.Refers h h := by
  intro around
  obtain ⟨r, refers, back⟩ := Relation.TransGen.head'_iff.mp around
  obtain ⟨_, ⟨⟨point, live, listed⟩, -⟩, -⟩ :=
    Knotted.exists_refers (k := r) ⟨.single refers, back⟩ around
  obtain ⟨⟨feature', found', listed'⟩, -⟩ := refers
  obtain rfl : feature' = feature := by simpa [found] using found'.symm
  obtain ⟨point', live', -, references⟩ := formed.points r listed'
  obtain rfl : point' = point := by simpa [live] using live'.symm
  rw [references] at listed
  cases listed

variable [Scalar α]

/-- No flaw belongs to a well-formed feature. -/
theorem WellFormed.not_owner (formed : sketch.WellFormed feature)
    (found : sketch.feature? h = some feature) {flaw : Flaw α} (listed : flaw ∈ sketch.flaws) :
    flaw.feature? ≠ some h := by
  intro owner
  rcases List.mem_append.mp listed with ofFeature | ofConstraint
  · rcases List.mem_append.mp ofFeature with single | circle
    · obtain ⟨⟨k, feature'⟩, stored, named⟩ := List.mem_flatMap.mp single
      obtain ⟨fault, faulty, rfl⟩ := List.mem_map.mp named
      obtain rfl : k = h := Option.some.inj owner
      obtain rfl : feature' = feature := by
        simpa [← feature?.eq_1, found] using (Arena.mem_items_iff.mp stored).symm
      rw [formed.featureFaults_eq_nil] at faulty
      cases faulty
    · obtain ⟨first, others, owner', -, circle⟩ := circle_of_mem_cycleFlaws circle
      obtain rfl : first = h := Option.some.inj (owner'.symm.trans owner)
      exact formed.not_transGen found circle.around
  · obtain ⟨⟨k, constraint⟩, -, flawed⟩ := List.mem_filterMap.mp ofConstraint
    obtain ⟨fault, -, rfl⟩ := Option.map_eq_some_iff.mp flawed
    cases owner

/-- **The features that are not broken are the well-formed ones.** -/
theorem not_mem_brokenFeatures_iff (found : sketch.feature? h = some feature) :
    h ∉ sketch.brokenFeatures sketch.flaws ↔ sketch.WellFormed feature := by
  constructor
  · intro sound
    have built := built_of_unbroken found sound
    refine ⟨built.count.trans (FeatureKind.arity_eq _).symm, built.distinct, ?_⟩
    intro p listed
    obtain ⟨point, live, kind⟩ := built.points p listed
    have count := (built_of_unbroken live (sound_references found sound p listed).1).count
    rw [kind] at count
    exact ⟨point, live, kind, List.length_eq_zero_iff.mp count⟩
  · intro formed broken
    rcases flaw_of_broken found broken with ⟨flaw, listed, owner⟩ |
      ⟨-, p, part, flaw, listed, owner⟩
    · exact formed.not_owner found listed owner
    · obtain ⟨point, live, bare⟩ := (formed.points p part).wellFormed
      exact bare.not_owner live listed owner

/-! ### Constraints -/

/-- The numbers of a constraint are there and in range. -/
@[mk_iff]
structure InRange (constraint : Constraint α) : Prop where
  axis : constraint.kind = .alongAxis → constraint.cardinality ≠ none
  amount : constraint.kind ∈ [.length, .radius, .angle, .lerp] → constraint.amount ≠ none
  nonnegative : constraint.kind ∈ [.length, .radius] →
    ∀ amount, constraint.amount = some amount → Ordered.lt amount 0 = false
  positive : constraint.kind ∈ [.radiusEqual, .equalLength] →
    Ordered.le constraint.multiplier 0 = false

theorem valueFault?_eq_none_iff {constraint : Constraint α} :
    valueFault? constraint = none ↔ InRange constraint := by
  rw [inRange_iff, valueFault?]
  cases kind : constraint.kind with
  | length | radius => cases amount : constraint.amount <;> simp
  | _ => simp

/-- A constraint that refers to different live features outside the broken ones, of kinds that it
takes, with numbers that are there and in range. -/
structure Acceptable (sketch : Sketch α) (broken : List Handle) (constraint : Constraint α) :
    Prop where
  live : ∀ r ∈ constraint.references, sketch.isLive r = true
  distinct : constraint.references.Nodup
  unbroken : ∀ r ∈ constraint.references, r ∉ broken
  kinds : ∃ kinds, constraint.kind.Takes kinds ∧
    List.Forall₂ (fun r kind => ∃ feature, sketch.feature? r = some feature ∧ feature.kind = kind)
      constraint.references kinds
  values : InRange constraint

omit [Scalar α] in
/-- The kinds of live features are those that they have, one by one. -/
theorem forall₂_kinds_iff {references : List Handle} {kinds : List FeatureKind}
    (live : ∀ r ∈ references, sketch.isLive r = true) :
    List.Forall₂ (fun r kind => ∃ feature, sketch.feature? r = some feature ∧ feature.kind = kind)
      references kinds ↔
        (references.filterMap fun r => (sketch.feature? r).map (·.kind)) = kinds := by
  constructor
  · intro both
    induction both with
    | nil => rfl
    | cons first _ ih =>
      obtain ⟨feature, found, kind⟩ := first
      rw [List.filterMap_cons, found, Option.map_some, kind,
        ih fun r listed => live r (List.mem_cons_of_mem _ listed)]
  · rintro rfl
    refine forall₂_kinds fun r listed => ?_
    obtain ⟨feature, found⟩ := isLive_iff.mp (live r listed)
    exact ⟨feature, found, feature, found, rfl⟩

/-- **The constraints without a fault are the acceptable ones.** -/
theorem constraintFault?_eq_none_iff {broken : List Handle} {constraint : Constraint α} :
    sketch.constraintFault? broken constraint = none ↔ sketch.Acceptable broken constraint := by
  constructor
  · intro faultless
    rw [constraintFault?] at faultless
    split at faultless
    · cases faultless
    rename_i live
    split at faultless
    · cases faultless
    rename_i distinct
    split at faultless
    · cases faultless
    rename_i unbroken
    dsimp only at faultless
    split at faultless
    · rename_i accepted
      have live : ∀ r ∈ constraint.references, sketch.isLive r = true := by
        intro r listed
        simpa using List.find?_eq_none.mp live r listed
      refine ⟨live, distinct_iff.mp (by simpa using distinct), fun r listed => ?_,
        ⟨_, ConstraintKind.accepts_iff_takes.mp accepted, (forall₂_kinds_iff live).mpr rfl⟩,
        valueFault?_eq_none_iff.mp faultless⟩
      simpa using List.find?_eq_none.mp unbroken r listed
    · cases faultless
  · rintro ⟨live, distinct, unbroken, ⟨kinds, takes, both⟩, values⟩
    have alive : constraint.references.find? (fun r => !sketch.isLive r) = none := by
      rw [List.find?_eq_none]
      intro r listed
      simp [live r listed]
    have sound : constraint.references.find? broken.contains = none := by
      rw [List.find?_eq_none]
      intro r listed
      simpa using unbroken r listed
    rw [forall₂_kinds_iff live] at both
    rw [constraintFault?, alive, sound, if_neg (by simpa using distinct_iff.mpr distinct)]
    dsimp only
    rw [both, if_pos (ConstraintKind.accepts_iff_takes.mpr takes)]
    exact valueFault?_eq_none_iff.mpr values

/-! ### Drawings -/

/-- The flaws say which features and which constraints of a drawing are well formed. -/
structure Validates (sketch : Sketch α) (flaws : List (Flaw α)) : Prop where
  features : ∀ h feature, sketch.feature? h = some feature →
    (h ∉ sketch.brokenFeatures flaws ↔ sketch.WellFormed feature)
  /-- an acceptable constraint has no flaw, another one has one flaw -/
  constraints : ∀ h constraint, sketch.constraints.get? h = some constraint →
    (sketch.Acceptable (sketch.brokenFeatures flaws) constraint ∧
      flaws.filter (·.constraint? = some h) = []) ∨
    (¬sketch.Acceptable (sketch.brokenFeatures flaws) constraint ∧
      ∃ flaw, flaws.filter (·.constraint? = some h) = [flaw])

/-- A constraint has a flaw when it has a fault. -/
theorem mem_flawed_iff {constraint : Constraint α}
    (found : sketch.constraints.get? h = some constraint) :
    h ∈ sketch.flaws.filterMap Flaw.constraint? ↔
      sketch.constraintFault? (sketch.brokenFeatures sketch.flaws) constraint ≠ none := by
  constructor
  · intro flawed
    obtain ⟨flaw, listed, owner⟩ := List.mem_filterMap.mp flawed
    rcases List.mem_append.mp listed with ofFeature | ofConstraint
    · rw [constraint?_of_featureFlaw ofFeature] at owner
      cases owner
    · obtain ⟨⟨k, constraint'⟩, stored, named⟩ := List.mem_filterMap.mp ofConstraint
      obtain ⟨fault, faulty, rfl⟩ := Option.map_eq_some_iff.mp named
      obtain rfl : k = h := Option.some.inj owner
      obtain rfl : constraint' = constraint := by
        simpa [found] using (Arena.mem_items_iff.mp stored).symm
      rw [brokenFeatures_flaws, faulty]
      exact Option.some_ne_none fault
  · intro faulty
    by_contra sound
    exact faulty (constraintFault?_eq_none_of_not_flawed found sound)

/-- **Validation accepts the well-formed items and no others**: the features outside the broken ones
are well formed, the constraints without a flaw are acceptable, another constraint has one flaw. A
strict validation stops at the first flaw. -/
theorem validates (sketch : Sketch α) : ∃ flaws, sketch.validate false = .ok flaws ∧
    sketch.Validates flaws ∧
    sketch.validate true = match flaws with
      | [] => .ok []
      | first :: _ => .error first := by
  refine ⟨sketch.flaws, rfl, ⟨?_, ?_⟩, ?_⟩
  · intro h feature found
    exact not_mem_brokenFeatures_iff found
  · intro h constraint found
    have flawed := mem_flawed_iff found
    rw [ne_eq, constraintFault?_eq_none_iff] at flawed
    rcases filter_cases_of_nodup sketch.nodup_flawedConstraints h with ⟨none, absent⟩ | ⟨one, known⟩
    · exact .inl ⟨not_not.mp (mt flawed.mpr absent), none⟩
    · exact .inr ⟨flawed.mp known, one⟩
  · unfold validate
    cases sketch.flaws <;> rfl

end Sketch

end PlaneSketch
