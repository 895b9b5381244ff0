import PlaneSketch.Compile
import PlaneSketch.Proofs.Lists
import PlaneSketch.Proofs.Pool
import PlaneSketch.Proofs.Validation

/-!
What a drawing compiles to.

`Demands` lists, form by form, the relation that a fit constraint stands for: which points it is
about and which numbers it carries. `Demands.compiles` and `Fit.demands` say that a fit constraint
compiles to this relation and to nothing else. Everything that is said later of the equations of a
drawing goes by cases on `Demands`.
-/

namespace PlaneSketch.Sketch

variable {α : Type}

/-! ### Features that are built as they should be -/

/-- Where the radius of a circle or an arc is found. -/
inductive Round (sketch : Sketch α) : Handle → Radius → Prop where
  | circle {h center : Handle} : sketch.Built h .circle [center] → Round sketch h (.circle h)
  | arc {h start center finish : Handle} : sketch.Built h .arc [start, center, finish] →
      Round sketch h (.arc start center)

namespace Built

variable {sketch : Sketch α} {h : Handle} {parts : List Handle}

theorem liveFeature {kind : FeatureKind} (built : sketch.Built h kind parts) :
    ∃ feature, sketch.liveFeature h = .ok feature ∧ feature.kind = kind ∧
      feature.references = parts := by
  obtain ⟨feature, found, shape⟩ := built.feature
  exact ⟨feature, by rw [Sketch.liveFeature, found], shape⟩

theorem point (built : sketch.Built h .point parts) : sketch.Point h := by
  obtain ⟨feature, found, kind, -⟩ := built.feature
  exact ⟨feature, found, kind⟩

theorem line_parts (built : sketch.Built h .line parts) : ∃ a b, parts = [a, b] :=
  List.length_eq_two.mp built.count

theorem circle_parts (built : sketch.Built h .circle parts) : ∃ center, parts = [center] :=
  List.length_eq_one_iff.mp built.count

theorem arc_parts (built : sketch.Built h .arc parts) :
    ∃ start center finish, parts = [start, center, finish] :=
  List.length_eq_three.mp built.count

theorem ends {a b : Handle} (built : sketch.Built h .line [a, b]) :
    sketch.ends h = .ok (a, b) := by
  obtain ⟨feature, live, -, references⟩ := built.liveFeature
  rw [Sketch.ends, live]
  simp only [bind, Except.bind, references]
  rfl

/-- A feature with a radius is a circle or an arc, and its radius is found. -/
theorem round {kind : FeatureKind} (built : sketch.Built h kind parts)
    (isRound : kind.isRound = true) : ∃ r, sketch.Round h r := by
  cases kind with
  | circle =>
    obtain ⟨center, rfl⟩ := built.circle_parts
    exact ⟨_, .circle built⟩
  | arc =>
    obtain ⟨start, center, finish, rfl⟩ := built.arc_parts
    exact ⟨_, .arc built⟩
  | point => cases isRound
  | line => cases isRound
  | gear => cases isRound

end Built

theorem Round.radiusOf {sketch : Sketch α} {h : Handle} {r : Radius} (round : sketch.Round h r) :
    sketch.radiusOf h = .ok r := by
  cases round with
  | circle built =>
    obtain ⟨feature, live, kind, -⟩ := built.liveFeature
    rw [Sketch.radiusOf, live]
    simp only [bind, Except.bind, kind]
    rfl
  | arc built =>
    obtain ⟨feature, live, kind, references⟩ := built.liveFeature
    rw [Sketch.radiusOf, live]
    simp only [bind, Except.bind, kind, references]
    rfl

section Forms

variable {sketch : Sketch α} {r : Handle}

/-- The handle names a feature built as it should be, of a kind that fits. -/
def Fits (sketch : Sketch α) (fits : FeatureKind → Bool) (r : Handle) : Prop :=
  ∃ kind parts, fits kind = true ∧ sketch.Built r kind parts

theorem point_of_isPoint (shape : sketch.Fits ConstraintKind.forms.isPoint r) :
    sketch.Point r := by
  obtain ⟨kind, parts, isPoint, built⟩ := shape
  obtain rfl : kind = .point := by simpa [ConstraintKind.forms.isPoint] using isPoint
  exact built.point

theorem line_of_isLine (shape : sketch.Fits ConstraintKind.forms.isLine r) :
    ∃ a b, sketch.Built r .line [a, b] := by
  obtain ⟨kind, parts, isLine, built⟩ := shape
  obtain rfl : kind = .line := by simpa [ConstraintKind.forms.isLine] using isLine
  obtain ⟨a, b, rfl⟩ := built.line_parts
  exact ⟨a, b, built⟩

theorem round_of_isRound (shape : sketch.Fits FeatureKind.isRound r) :
    ∃ radius, sketch.Round r radius := by
  obtain ⟨kind, parts, isRound, built⟩ := shape
  exact built.round isRound

end Forms

variable [Scalar α]

/-! ### The relation of a constraint -/

/-- The relation that a constraint stands for, by its kind and the features it refers to. -/
inductive Demands (sketch : Sketch α) (constraint : Constraint α) : Relation α → Prop where
  | fixed {p : Handle} : constraint.kind = .fixed → constraint.references = [p] →
      sketch.Point p → Demands sketch constraint (.fixed p constraint.position)
  | lengthOfLine {l a b : Handle} : constraint.kind = .length → constraint.references = [l] →
      sketch.Built l .line [a, b] →
      Demands sketch constraint (lengthRelation a b constraint.cardinality constraint.measure)
  | lengthOfPoints {a b : Handle} : constraint.kind = .length → constraint.references = [a, b] →
      sketch.Point a → sketch.Point b →
      Demands sketch constraint (lengthRelation a b constraint.cardinality constraint.measure)
  | radius {h : Handle} {r : Radius} : constraint.kind = .radius → constraint.references = [h] →
      sketch.Round h r → Demands sketch constraint (.radius r constraint.measure)
  | radiusEqual {g h : Handle} {r s : Radius} : constraint.kind = .radiusEqual →
      constraint.references = [g, h] → sketch.Round g r → sketch.Round h s →
      Demands sketch constraint (.radiusRatio r s constraint.multiplier)
  | parallel {k l a b c d : Handle} : constraint.kind = .parallel →
      constraint.references = [k, l] → sketch.Built k .line [a, b] → sketch.Built l .line [c, d] →
      Demands sketch constraint (.parallel a b c d)
  | perpendicular {k l a b c d : Handle} : constraint.kind = .perpendicular →
      constraint.references = [k, l] → sketch.Built k .line [a, b] → sketch.Built l .line [c, d] →
      Demands sketch constraint (.perpendicular a b c d)
  | heading {l a b : Handle} {cosine sine : α} : constraint.kind = .angle →
      constraint.references = [l] → sketch.Built l .line [a, b] →
      Scalar.cosSin? constraint.measure = some (cosine, sine) →
      Demands sketch constraint (.heading a b cosine sine)
  | turn {k l a b c d : Handle} {cosine sine : α} : constraint.kind = .angle →
      constraint.references = [k, l] → sketch.Built k .line [a, b] → sketch.Built l .line [c, d] →
      Scalar.cosSin? constraint.measure = some (cosine, sine) →
      Demands sketch constraint (.turn a b c d cosine sine)
  | coincident {p q : Handle} : constraint.kind = .coincident → constraint.references = [p, q] →
      sketch.Point p → sketch.Point q → Demands sketch constraint (.coincident p q)
  | onLine {p l a b : Handle} : constraint.kind = .coincident → constraint.references = [p, l] →
      sketch.Point p → sketch.Built l .line [a, b] → Demands sketch constraint (.onLine p a b)
  | onCircle {p k center : Handle} : constraint.kind = .coincident →
      constraint.references = [p, k] → sketch.Point p → sketch.Built k .circle [center] →
      Demands sketch constraint (.onCircle p center k)
  | onArc {p k start center finish : Handle} : constraint.kind = .coincident →
      constraint.references = [p, k] → sketch.Point p →
      sketch.Built k .arc [start, center, finish] →
      Demands sketch constraint (.onArc p center start)
  | midpoint {p q m : Handle} : constraint.kind = .symmetric →
      constraint.references = [p, q, m] → sketch.Point p → sketch.Point q → sketch.Point m →
      Demands sketch constraint (.midpoint p q m)
  | reflected {p q l a b : Handle} : constraint.kind = .symmetric →
      constraint.references = [p, q, l] → sketch.Point p → sketch.Point q →
      sketch.Built l .line [a, b] → Demands sketch constraint (.reflected p q a b)
  | horizontal {l a b : Handle} {negated : Bool} : constraint.kind = .alongAxis →
      constraint.references = [l] → sketch.Built l .line [a, b] →
      constraint.cardinality = some ⟨.leftRight, negated⟩ →
      Demands sketch constraint (.level ⟨a, .y⟩ ⟨b, .y⟩)
  | vertical {l a b : Handle} {negated : Bool} : constraint.kind = .alongAxis →
      constraint.references = [l] → sketch.Built l .line [a, b] →
      constraint.cardinality = some ⟨.topBottom, negated⟩ →
      Demands sketch constraint (.level ⟨a, .x⟩ ⟨b, .x⟩)
  | between {p l a b : Handle} : constraint.kind = .lerp → constraint.references = [p, l] →
      sketch.Point p → sketch.Built l .line [a, b] →
      Demands sketch constraint (.between p a b constraint.measure)
  | equalLength {k l a b c d : Handle} : constraint.kind = .equalLength →
      constraint.references = [k, l] → sketch.Built k .line [a, b] → sketch.Built l .line [c, d] →
      Demands sketch constraint (.lengthRatio a b c d constraint.multiplier)

namespace Fit

variable {sketch : Sketch α} {constraint : Constraint α} {kinds : List FeatureKind}

/-- The references of a fit constraint, read along one of its forms. -/
theorem form (fit : sketch.Fit constraint kinds) :
    ∃ form ∈ constraint.kind.forms, List.Forall₂ sketch.Fits form constraint.references := by
  obtain ⟨form, listed, fits⟩ := ConstraintKind.accepts_iff.mp fit.accepted
  refine ⟨form, listed, ?_⟩
  have built := fit.references
  generalize constraint.references = references at built
  clear listed fit
  induction fits generalizing references with
  | nil =>
    cases built
    exact .nil
  | cons fits _ ih =>
    cases built with
    | cons shape built =>
      obtain ⟨parts, shape⟩ := shape
      exact .cons ⟨_, parts, fits, shape⟩ (ih _ built)

end Fit

/-! ### More features -/

section Mono

variable {sketch joint : Sketch α} {h : Handle} {kind : FeatureKind} {parts : List Handle}
  {r : Radius} {constraint : Constraint α} {relation : Relation α}
  (kept : ∀ {h feature}, sketch.feature? h = some feature → joint.feature? h = some feature)

include kept

omit [Scalar α] in
theorem Point.mono (point : sketch.Point h) : joint.Point h := by
  obtain ⟨feature, found, kind⟩ := point
  exact ⟨feature, kept found, kind⟩

omit [Scalar α] in
theorem Built.mono (built : sketch.Built h kind parts) : joint.Built h kind parts := by
  obtain ⟨⟨feature, found, shape⟩, count, distinct, points⟩ := built
  exact ⟨⟨feature, kept found, shape⟩, count, distinct, fun p listed => (points p listed).mono kept⟩

omit [Scalar α] in
theorem Round.mono (round : sketch.Round h r) : joint.Round h r := by
  cases round with
  | circle built => exact .circle (built.mono kept)
  | arc built => exact .arc (built.mono kept)

/-- **What a constraint stands for does not change** when features are added. -/
theorem Demands.mono (demands : sketch.Demands constraint relation) :
    joint.Demands constraint relation := by
  cases demands with
  | fixed kind references point => exact .fixed kind references (point.mono kept)
  | lengthOfLine kind references built => exact .lengthOfLine kind references (built.mono kept)
  | lengthOfPoints kind references first second =>
    exact .lengthOfPoints kind references (first.mono kept) (second.mono kept)
  | radius kind references round => exact .radius kind references (round.mono kept)
  | radiusEqual kind references first second =>
    exact .radiusEqual kind references (first.mono kept) (second.mono kept)
  | parallel kind references first second =>
    exact .parallel kind references (first.mono kept) (second.mono kept)
  | perpendicular kind references first second =>
    exact .perpendicular kind references (first.mono kept) (second.mono kept)
  | heading kind references built finite =>
    exact .heading kind references (built.mono kept) finite
  | turn kind references first second finite =>
    exact .turn kind references (first.mono kept) (second.mono kept) finite
  | coincident kind references first second =>
    exact .coincident kind references (first.mono kept) (second.mono kept)
  | onLine kind references point built =>
    exact .onLine kind references (point.mono kept) (built.mono kept)
  | onCircle kind references point built =>
    exact .onCircle kind references (point.mono kept) (built.mono kept)
  | onArc kind references point built =>
    exact .onArc kind references (point.mono kept) (built.mono kept)
  | midpoint kind references first second third =>
    exact .midpoint kind references (first.mono kept) (second.mono kept) (third.mono kept)
  | reflected kind references first second built =>
    exact .reflected kind references (first.mono kept) (second.mono kept) (built.mono kept)
  | horizontal kind references built given =>
    exact .horizontal kind references (built.mono kept) given
  | vertical kind references built given =>
    exact .vertical kind references (built.mono kept) given
  | between kind references point built =>
    exact .between kind references (point.mono kept) (built.mono kept)
  | equalLength kind references first second =>
    exact .equalLength kind references (first.mono kept) (second.mono kept)

end Mono

/-! ### Compiling a fit constraint -/

section Compiling

variable {sketch : Sketch α} {constraint : Constraint α} {kinds : List FeatureKind}

omit [Scalar α] in
/-- The ends of two lines, put into a relation. -/
theorem twoLines_eq (form : Handle → Handle → Handle → Handle → Relation α)
    {k l a b c d : Handle} (first : sketch.Built k .line [a, b])
    (second : sketch.Built l .line [c, d]) :
    (do
      let (a, b) ← sketch.ends (← referenceAt [k, l] 0)
      let (c, d) ← sketch.ends (← referenceAt [k, l] 1)
      return form a b c d : Except Failure (Relation α)) = .ok (form a b c d) := by
  simp [referenceAt, bind, Except.bind, pure, Except.pure, first.ends, second.ends]

/-- The relation of a point and a feature is found by the kind of the feature. -/
theorem relationOf_of_coincident {h p o : Handle} {parts : List Handle} {kind : FeatureKind}
    (isCoincident : constraint.kind = .coincident) (references : constraint.references = [p, o])
    (built : sketch.Built o kind parts) :
    ∃ feature, feature.kind = kind ∧ feature.references = parts ∧
      sketch.liveFeature o = .ok feature ∧
      sketch.relationOf h constraint = sketch.coincidence h p o := by
  obtain ⟨feature, live, isKind, parts_eq⟩ := built.liveFeature
  exact ⟨feature, isKind, parts_eq, live, by simp only [relationOf, isCoincident, references]⟩

/-- **A constraint compiles to the relation that it stands for.** -/
theorem Demands.compiles {relation : Relation α} (demands : sketch.Demands constraint relation)
    (h : Handle) : sketch.relationOf h constraint = .ok relation := by
  cases demands with
  | fixed kind references _ =>
    simp only [relationOf, kind, references]
    rfl
  | lengthOfLine kind references built =>
    simp only [relationOf, kind, references, measuredPoints, built.ends]
    rfl
  | lengthOfPoints kind references _ _ =>
    simp only [relationOf, kind, references]
    rfl
  | radius kind references round =>
    simp [relationOf, kind, references, referenceAt, bind, Except.bind, pure, Except.pure,
      round.radiusOf]
  | radiusEqual kind references first second =>
    simp [relationOf, kind, references, referenceAt, bind, Except.bind, pure, Except.pure,
      first.radiusOf, second.radiusOf]
  | parallel kind references first second | perpendicular kind references first second =>
    simp only [relationOf, kind, references]
    exact twoLines_eq _ first second
  | heading kind references built finite =>
    simp only [relationOf, kind, references, finite, built.ends]
    rfl
  | @turn k l a b c d cosine sine kind references first second finite =>
    simp only [relationOf, kind, references, finite]
    exact twoLines_eq (fun a b c d => .turn a b c d cosine sine) first second
  | coincident kind references _ point =>
    obtain ⟨feature, found, isPoint⟩ := point
    simp only [relationOf, kind, references, coincidence, liveFeature, found, bind, Except.bind,
      isPoint]
    rfl
  | onLine kind references _ built =>
    obtain ⟨feature, isKind, -, live, compiled⟩ := relationOf_of_coincident kind references built
    rw [compiled, coincidence, live]
    simp only [bind, Except.bind, isKind, built.ends]
    rfl
  | onCircle kind references _ built =>
    obtain ⟨feature, isKind, parts, live, compiled⟩ :=
      relationOf_of_coincident kind references built
    rw [compiled, coincidence, live]
    simp only [bind, Except.bind, isKind, parts]
    rfl
  | onArc kind references _ built =>
    obtain ⟨feature, isKind, parts, live, compiled⟩ :=
      relationOf_of_coincident kind references built
    rw [compiled, coincidence, live]
    simp only [bind, Except.bind, isKind, parts]
    rfl
  | midpoint kind references _ _ middle =>
    obtain ⟨feature, found, isPoint⟩ := middle
    simp only [relationOf, kind, references, liveFeature, found, bind, Except.bind, isPoint]
    rfl
  | reflected kind references _ _ built =>
    obtain ⟨feature, live, isLine, -⟩ := built.liveFeature
    simp only [relationOf, kind, references, live, bind, Except.bind, isLine, built.ends]
    rfl
  | horizontal kind references built given | vertical kind references built given =>
    simp [relationOf, kind, references, referenceAt, bind, Except.bind, pure, Except.pure,
      built.ends, given]
  | between kind references _ built =>
    simp only [relationOf, kind, references, built.ends]
    rfl
  | equalLength kind references first second =>
    simp only [relationOf, kind, references]
    exact twoLines_eq (fun a b c d => .lengthRatio a b c d constraint.multiplier) first second

theorem exists_demands_coincident (kind : constraint.kind = .coincident)
    {form : List (FeatureKind → Bool)} (listed : form ∈ ConstraintKind.coincident.forms)
    (shapes : List.Forall₂ sketch.Fits form constraint.references) :
    ∃ relation, sketch.Demands constraint relation := by
  obtain rfl := List.mem_singleton.mp listed
  obtain ⟨p, o, point, ⟨otherKind, parts, notGear, built⟩, references⟩ :=
    eq_of_forall₂_two shapes
  have point := point_of_isPoint point
  cases otherKind with
  | point => exact ⟨_, .coincident kind references point built.point⟩
  | line =>
    obtain ⟨a, b, rfl⟩ := built.line_parts
    exact ⟨_, .onLine kind references point built⟩
  | circle =>
    obtain ⟨center, rfl⟩ := built.circle_parts
    exact ⟨_, .onCircle kind references point built⟩
  | arc =>
    obtain ⟨start, center, finish, rfl⟩ := built.arc_parts
    exact ⟨_, .onArc kind references point built⟩
  | gear => simp at notGear

omit [Scalar α] in
/-- Two lines among the references of a constraint. -/
theorem exists_lines {references : List Handle}
    (shapes : List.Forall₂ sketch.Fits [ConstraintKind.forms.isLine, ConstraintKind.forms.isLine]
      references) :
    ∃ k l a b c d, references = [k, l] ∧ sketch.Built k .line [a, b] ∧
      sketch.Built l .line [c, d] := by
  obtain ⟨k, l, first, second, references⟩ := eq_of_forall₂_two shapes
  obtain ⟨a, b, first⟩ := line_of_isLine first
  obtain ⟨c, d, second⟩ := line_of_isLine second
  exact ⟨k, l, a, b, c, d, references, first, second⟩

/-- **A fit constraint stands for a relation**, unless it asks for an infinite angle. -/
theorem Fit.exists_demands (fit : sketch.Fit constraint kinds)
    (finite : constraint.kind = .angle → Scalar.cosSin? constraint.measure ≠ none) :
    ∃ relation, sketch.Demands constraint relation := by
  obtain ⟨form, listed, shapes⟩ := fit.form
  have values := fit.values
  cases kind : constraint.kind <;> rw [kind] at listed
  case fixed =>
    obtain rfl := List.mem_singleton.mp listed
    obtain ⟨p, point, references⟩ := eq_of_forall₂_one shapes
    exact ⟨_, .fixed kind references (point_of_isPoint point)⟩
  case length =>
    simp only [ConstraintKind.forms, List.mem_cons, List.not_mem_nil, or_false] at listed
    rcases listed with rfl | rfl
    · obtain ⟨l, line, references⟩ := eq_of_forall₂_one shapes
      obtain ⟨a, b, built⟩ := line_of_isLine line
      exact ⟨_, .lengthOfLine kind references built⟩
    · obtain ⟨a, b, first, second, references⟩ := eq_of_forall₂_two shapes
      exact ⟨_, .lengthOfPoints kind references (point_of_isPoint first)
        (point_of_isPoint second)⟩
  case radius =>
    obtain rfl := List.mem_singleton.mp listed
    obtain ⟨k, isRound, references⟩ := eq_of_forall₂_one shapes
    obtain ⟨r, round⟩ := round_of_isRound isRound
    exact ⟨_, .radius kind references round⟩
  case radiusEqual =>
    obtain rfl := List.mem_singleton.mp listed
    obtain ⟨k, l, first, second, references⟩ := eq_of_forall₂_two shapes
    obtain ⟨r, first⟩ := round_of_isRound first
    obtain ⟨s, second⟩ := round_of_isRound second
    exact ⟨_, .radiusEqual kind references first second⟩
  case parallel =>
    obtain rfl := List.mem_singleton.mp listed
    obtain ⟨k, l, a, b, c, d, references, first, second⟩ := exists_lines shapes
    exact ⟨_, .parallel kind references first second⟩
  case perpendicular =>
    obtain rfl := List.mem_singleton.mp listed
    obtain ⟨k, l, a, b, c, d, references, first, second⟩ := exists_lines shapes
    exact ⟨_, .perpendicular kind references first second⟩
  case angle =>
    obtain ⟨⟨cosine, sine⟩, finite⟩ := Option.ne_none_iff_exists'.mp (finite kind)
    simp only [ConstraintKind.forms, List.mem_cons, List.not_mem_nil, or_false] at listed
    rcases listed with rfl | rfl
    · obtain ⟨l, line, references⟩ := eq_of_forall₂_one shapes
      obtain ⟨a, b, built⟩ := line_of_isLine line
      exact ⟨_, .heading kind references built finite⟩
    · obtain ⟨k, l, a, b, c, d, references, first, second⟩ := exists_lines shapes
      exact ⟨_, .turn kind references first second finite⟩
  case coincident => exact exists_demands_coincident kind listed shapes
  case symmetric =>
    simp only [ConstraintKind.forms, List.mem_cons, List.not_mem_nil, or_false] at listed
    rcases listed with rfl | rfl
    · obtain ⟨p, q, l, first, second, line, references⟩ := eq_of_forall₂_three shapes
      obtain ⟨a, b, built⟩ := line_of_isLine line
      exact ⟨_, .reflected kind references (point_of_isPoint first) (point_of_isPoint second) built⟩
    · obtain ⟨p, q, m, first, second, third, references⟩ := eq_of_forall₂_three shapes
      exact ⟨_, .midpoint kind references (point_of_isPoint first) (point_of_isPoint second)
        (point_of_isPoint third)⟩
  case alongAxis =>
    obtain rfl := List.mem_singleton.mp listed
    obtain ⟨l, line, references⟩ := eq_of_forall₂_one shapes
    obtain ⟨a, b, built⟩ := line_of_isLine line
    cases given : constraint.cardinality with
    | none => simp [valueFault?, kind, given] at values
    | some cardinality =>
      obtain ⟨axis, negated⟩ := cardinality
      cases axis with
      | leftRight => exact ⟨_, .horizontal kind references built given⟩
      | topBottom => exact ⟨_, .vertical kind references built given⟩
  case lerp =>
    obtain rfl := List.mem_singleton.mp listed
    obtain ⟨p, l, point, line, references⟩ := eq_of_forall₂_two shapes
    obtain ⟨a, b, built⟩ := line_of_isLine line
    exact ⟨_, .between kind references (point_of_isPoint point) built⟩
  case equalLength =>
    obtain rfl := List.mem_singleton.mp listed
    obtain ⟨k, l, a, b, c, d, references, first, second⟩ := exists_lines shapes
    exact ⟨_, .equalLength kind references first second⟩

theorem relationOf_of_infinite (h : Handle) (kind : constraint.kind = .angle)
    (infinite : Scalar.cosSin? constraint.measure = none) :
    sketch.relationOf h constraint = .error .infiniteAngle := by
  simp only [relationOf, kind, infinite]
  rfl

/-- What a fit constraint compiles to is a relation that it stands for. -/
theorem Fit.demands (fit : sketch.Fit constraint kinds) {h : Handle} {relation : Relation α}
    (compiled : sketch.relationOf h constraint = .ok relation) :
    sketch.Demands constraint relation := by
  have finite : constraint.kind = .angle → Scalar.cosSin? constraint.measure ≠ none := by
    intro kind infinite
    rw [relationOf_of_infinite h kind infinite] at compiled
    cases compiled
  obtain ⟨relation', demands⟩ := fit.exists_demands finite
  rw [demands.compiles h] at compiled
  cases compiled
  exact demands

end Compiling

/-! ### The variables of a relation -/

section Slots

variable {sketch : Sketch α} {constraint : Constraint α} {relation : Relation α}

/-- The variable is a number of a live feature. -/
def Registered (sketch : Sketch α) (v : Variable) : Prop :=
  ∃ feature, sketch.feature? v.handle = some feature ∧ v.component ∈ feature.kind.components

omit [Scalar α] in
theorem registered_point {p : Handle} (point : sketch.Point p) :
    sketch.Registered ⟨p, .x⟩ ∧ sketch.Registered ⟨p, .y⟩ := by
  obtain ⟨feature, found, kind⟩ := point
  constructor
  · exact ⟨feature, found, by simp [kind, FeatureKind.components]⟩
  · exact ⟨feature, found, by simp [kind, FeatureKind.components]⟩

omit [Scalar α] in
theorem registered_coordinates {points : List Handle} (live : ∀ p ∈ points, sketch.Point p)
    {v : Variable} (slot : v ∈ coordinates points) : sketch.Registered v := by
  simp only [coordinates, List.mem_flatMap, List.mem_cons, List.not_mem_nil, or_false] at slot
  obtain ⟨p, listed, rfl | rfl⟩ := slot
  · exact (registered_point (live p listed)).1
  · exact (registered_point (live p listed)).2

omit [Scalar α] in
theorem registered_radius {h : Handle} {parts : List Handle}
    (built : sketch.Built h .circle parts) : sketch.Registered ⟨h, .r⟩ := by
  obtain ⟨feature, found, kind, -⟩ := built.feature
  exact ⟨feature, found, by simp [kind, FeatureKind.components]⟩

omit [Scalar α] in
theorem Round.registered {h : Handle} {r : Radius} (round : sketch.Round h r) {v : Variable}
    (slot : v ∈ r.slots) : sketch.Registered v := by
  cases round with
  | circle built =>
    obtain rfl := List.mem_singleton.mp slot
    exact registered_radius built
  | arc built =>
    refine registered_coordinates (fun p listed => built.points p ?_) slot
    simp only [List.mem_cons, List.not_mem_nil, or_false] at listed ⊢
    exact listed.elim .inl fun same => .inr (.inl same)

theorem slots_lengthRelation (a b : Handle) (cardinality : Option Cardinality) (length : α) :
    (lengthRelation a b cardinality length).slots = coordinates [a, b] := by
  unfold lengthRelation
  split <;> rfl

/-- **A fit constraint reads numbers of live features only.** -/
theorem Demands.registered (demands : sketch.Demands constraint relation) {v : Variable}
    (slot : v ∈ relation.slots) : sketch.Registered v := by
  cases demands with
  | fixed _ _ point => exact registered_coordinates (by simpa using point) slot
  | lengthOfLine _ _ built =>
    rw [slots_lengthRelation] at slot
    exact registered_coordinates built.points slot
  | lengthOfPoints _ _ first second =>
    rw [slots_lengthRelation] at slot
    exact registered_coordinates (by simp [first, second]) slot
  | radius _ _ round => exact round.registered slot
  | radiusEqual _ _ first second =>
    exact (List.mem_append.mp slot).elim first.registered second.registered
  | parallel _ _ first second | perpendicular _ _ first second | turn _ _ first second _
  | equalLength _ _ first second =>
    exact registered_coordinates
      (fun p listed => (List.mem_append (s := [_, _]) (t := [_, _])).mp listed |>.elim
        (first.points p) (second.points p)) slot
  | heading _ _ built _ => exact registered_coordinates built.points slot
  | coincident _ _ first second => exact registered_coordinates (by simp [first, second]) slot
  | onLine _ _ point built | between _ _ point built =>
    exact registered_coordinates (List.forall_mem_cons.mpr ⟨point, built.points⟩) slot
  | onCircle _ _ point built =>
    rcases List.mem_append.mp slot with coordinate | radius
    · exact registered_coordinates (List.forall_mem_cons.mpr ⟨point, built.points⟩) coordinate
    · obtain rfl := List.mem_singleton.mp radius
      exact registered_radius built
  | onArc _ _ point built =>
    refine registered_coordinates (fun p listed => ?_) slot
    have points := built.points
    simp only [List.mem_cons, List.not_mem_nil, or_false, forall_eq_or_imp, forall_eq]
      at listed points
    rcases listed with rfl | rfl | rfl
    · exact point
    · exact points.2.1
    · exact points.1
  | midpoint _ _ first second third =>
    exact registered_coordinates (by simp [first, second, third]) slot
  | reflected _ _ first second built =>
    exact registered_coordinates
      (List.forall_mem_cons.mpr ⟨first, List.forall_mem_cons.mpr ⟨second, built.points⟩⟩) slot
  | horizontal _ _ built _ =>
    simp only [Relation.slots, List.mem_cons, List.not_mem_nil, or_false] at slot
    rcases slot with rfl | rfl
    · exact (registered_point (built.points _ (by simp))).2
    · exact (registered_point (built.points _ (by simp))).2
  | vertical _ _ built _ =>
    simp only [Relation.slots, List.mem_cons, List.not_mem_nil, or_false] at slot
    rcases slot with rfl | rfl
    · exact (registered_point (built.points _ (by simp))).1
    · exact (registered_point (built.points _ (by simp))).1

omit [Scalar α] in
theorem handle_of_coordinates {points : List Handle} {v : Variable}
    (slot : v ∈ coordinates points) : v.handle ∈ points := by
  simp only [coordinates, List.mem_flatMap, List.mem_cons, List.not_mem_nil, or_false] at slot
  obtain ⟨p, listed, rfl | rfl⟩ := slot
  · exact listed
  · exact listed

/-- **A fit constraint reads numbers of what it refers to, and of the points that this is built
on.** -/
theorem Demands.slots_of {P : Handle → Prop}
    (closed : ∀ {h kind parts}, sketch.Built h kind parts → P h → ∀ p ∈ parts, P p)
    (referred : ∀ r ∈ constraint.references, P r) (demands : sketch.Demands constraint relation) :
    ∀ v ∈ relation.slots, P v.handle := by
  have coordinates_of : ∀ {points : List Handle}, (∀ p ∈ points, P p) →
      ∀ v ∈ coordinates points, P v.handle :=
    fun holds v slot => holds v.handle (handle_of_coordinates slot)
  have round_of : ∀ {h r}, sketch.Round h r → P h → ∀ v ∈ r.slots, P v.handle := by
    intro h r round holds
    cases round with
    | circle => simpa [Radius.slots] using holds
    | arc built =>
      have parts := closed built holds
      simp only [List.mem_cons, List.not_mem_nil, or_false, forall_eq_or_imp, forall_eq] at parts
      exact coordinates_of (by simp [parts])
  cases demands with
  | fixed _ references _ =>
    rw [references] at referred
    exact coordinates_of referred
  | lengthOfLine _ references built =>
    rw [references, List.forall_mem_singleton] at referred
    rw [slots_lengthRelation]
    exact coordinates_of (closed built referred)
  | lengthOfPoints _ references _ _ =>
    rw [references] at referred
    rw [slots_lengthRelation]
    exact coordinates_of referred
  | radius _ references round =>
    rw [references, List.forall_mem_singleton] at referred
    exact round_of round referred
  | radiusEqual _ references first second =>
    rw [references, List.forall_mem_cons, List.forall_mem_singleton] at referred
    exact List.forall_mem_append.mpr ⟨round_of first referred.1, round_of second referred.2⟩
  | parallel _ references first second | perpendicular _ references first second
  | turn _ references first second _ | equalLength _ references first second =>
    rw [references, List.forall_mem_cons, List.forall_mem_singleton] at referred
    have points := List.forall_mem_append.mpr
      ⟨closed first referred.1, closed second referred.2⟩
    exact coordinates_of points
  | heading _ references built _ =>
    rw [references, List.forall_mem_singleton] at referred
    exact coordinates_of (closed built referred)
  | coincident _ references _ _ =>
    rw [references] at referred
    exact coordinates_of referred
  | onLine _ references _ built | between _ references _ built =>
    rw [references, List.forall_mem_cons, List.forall_mem_singleton] at referred
    exact coordinates_of (List.forall_mem_cons.mpr ⟨referred.1, closed built referred.2⟩)
  | onCircle _ references _ built =>
    rw [references, List.forall_mem_cons, List.forall_mem_singleton] at referred
    exact List.forall_mem_append.mpr
      ⟨coordinates_of (List.forall_mem_cons.mpr ⟨referred.1, closed built referred.2⟩),
        by simpa using referred.2⟩
  | onArc _ references _ built =>
    rw [references, List.forall_mem_cons, List.forall_mem_singleton] at referred
    have parts := closed built referred.2
    simp only [List.mem_cons, List.not_mem_nil, or_false, forall_eq_or_imp, forall_eq] at parts
    exact coordinates_of (by simp [parts, referred.1])
  | midpoint _ references _ _ _ =>
    rw [references] at referred
    exact coordinates_of referred
  | reflected _ references _ _ built =>
    rw [references] at referred
    simp only [List.mem_cons, List.not_mem_nil, or_false, forall_eq_or_imp, forall_eq] at referred
    exact coordinates_of (List.forall_mem_cons.mpr ⟨referred.1,
      List.forall_mem_cons.mpr ⟨referred.2.1, closed built referred.2.2⟩⟩)
  | horizontal _ references built _ | vertical _ references built _ =>
    rw [references, List.forall_mem_singleton] at referred
    have parts := closed built referred
    simp only [List.mem_cons, List.not_mem_nil, or_false, forall_eq_or_imp, forall_eq] at parts
    simpa [Relation.slots] using parts

/-- The variables cannot be one lone coordinate: there is a radius among them, or two of them. -/
def Entangled (unknowns : List Variable) : Prop :=
  (∃ h, ⟨h, .r⟩ ∈ unknowns) ∨ ∃ u ∈ unknowns, ∃ v ∈ unknowns, u ≠ v

theorem Entangled.mono {unknowns others : List Variable} (entangled : Entangled unknowns)
    (within : unknowns ⊆ others) : Entangled others := by
  rcases entangled with ⟨h, radius⟩ | ⟨u, first, v, second, ne⟩
  · exact .inl ⟨h, within radius⟩
  · exact .inr ⟨u, within first, v, within second, ne⟩

theorem entangled_coordinates (p : Handle) (points : List Handle) :
    Entangled (coordinates (p :: points)) :=
  .inr ⟨⟨p, .x⟩, by simp [coordinates], ⟨p, .y⟩, by simp [coordinates], by simp⟩

theorem entangled_radius (r : Radius) : Entangled r.slots := by
  cases r with
  | circle c => exact .inl ⟨c, List.mem_singleton_self _⟩
  | arc start center => exact entangled_coordinates start [center]

/-- **No fit constraint is about one lone coordinate.** -/
theorem Demands.entangled (demands : sketch.Demands constraint relation) :
    Entangled relation.slots := by
  cases demands with
  | lengthOfLine _ _ _ | lengthOfPoints _ _ _ _ =>
    rw [slots_lengthRelation]
    exact entangled_coordinates _ _
  | radius _ _ _ => exact entangled_radius _
  | radiusEqual _ _ _ _ => exact (entangled_radius _).mono (List.subset_append_left _ _)
  | onCircle _ _ _ _ => exact (entangled_coordinates _ _).mono (List.subset_append_left _ _)
  | horizontal _ _ built _ | vertical _ _ built _ =>
    have ne := built.distinct
    simp only [List.nodup_cons, List.mem_singleton] at ne
    refine .inr ⟨_, List.mem_cons_self, _, List.mem_cons_of_mem _ (List.mem_singleton_self _), ?_⟩
    simpa using ne.1
  | fixed _ _ _ | parallel _ _ _ _ | perpendicular _ _ _ _ | heading _ _ _ _ | turn _ _ _ _ _
  | coincident _ _ _ _ | onLine _ _ _ _ | onArc _ _ _ _ | midpoint _ _ _ _ _
  | reflected _ _ _ _ _ | between _ _ _ _ | equalLength _ _ _ _ =>
    exact entangled_coordinates _ _

end Slots

end PlaneSketch.Sketch
