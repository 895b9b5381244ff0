import Mathlib
import PlaneSketch.Proofs.Reports

/-!
What is skipped along with a flaw, and what is not.

* `skips_left_out`: what a constraint that is left out refers to is skipped, and so is what a broken
  feature is built on, when the feature has a flaw of its own. Of a feature that is broken because
  of a part alone, the part is skipped.
* `coordinates_reported`: a variable goes without a value exactly when its island is skipped; the
  coordinates of a point that nothing binds share their island.

Two drawings show that no more can be said: `exists_solved_without_arc` leaves out an arc and
solves the rest of it, `exists_half_reported` reports one coordinate of a point.
-/

namespace PlaneSketch

/-! ### What is left out -/

section Leaving

variable {α : Type} [Scalar α] {ν : Type} [Ordered ν] {numerals : Numerals ν α}
  {session session' : Session α} {methods : Methods α} {options : Options ν} {sketch : Sketch α}
  {drag : Option (Drag α)} {result : Result α} {pool : Pool α}

/-- All free variables that a flaw touches are skipped. -/
theorem Result.Blames.skips (blames : result.Blames sketch pool) {flaw : Flaw α}
    (flawed : flaw ∈ sketch.flaws) {v : Variable}
    (touches : v ∈ sketch.closure pool flaw.references) (free : pool.isFree v = true) :
    result.Skips v := by
  rw [← blames.flaws] at flawed
  obtain ⟨report, reported, listed⟩ := List.mem_flatMap.mp (blames.shared.mem_iff.mpr flawed)
  exact ⟨report, reported, (blames.skipped report reported).mpr (List.ne_nil_of_mem listed),
    blames.touched report reported flaw listed v touches free⟩

/-- With a flaw of its own, a feature is skipped together with all that it is built on. -/
theorem Result.Blames.skips_of_owner (blames : result.Blames sketch pool) {flaw : Flaw α}
    {h : Handle} (flawed : flaw ∈ sketch.flaws) (owner : flaw.feature? = some h) {v : Variable}
    (built : v ∈ sketch.closure pool [h]) (free : pool.isFree v = true) : result.Skips v := by
  refine blames.skips flawed (Sketch.closure_subset (fun k listed => ?_) built) free
  obtain rfl := List.mem_singleton.mp listed
  exact Flaw.mem_references_of_owner owner

/-- The flaw of a constraint touches what the constraint refers to. -/
theorem exists_flaw_of_flawedConstraint {h : Handle} {constraint : Constraint α}
    (found : sketch.constraints.get? h = some constraint)
    (flawed : h ∈ Plan.flawedConstraints sketch.flaws) :
    ∃ flaw ∈ sketch.flaws, flaw.references = constraint.references := by
  obtain ⟨flaw, listed, owner⟩ := List.mem_filterMap.mp flawed
  refine ⟨flaw, listed, ?_⟩
  rcases List.mem_append.mp listed with ofFeature | ofConstraint
  · rw [Sketch.constraint?_of_featureFlaw ofFeature] at owner
    cases owner
  · obtain ⟨⟨k, constraint'⟩, member, faulty⟩ := List.mem_filterMap.mp ofConstraint
    obtain ⟨fault, -, rfl⟩ := Option.map_eq_some_iff.mp faulty
    obtain rfl : k = h := by simpa [Flaw.constraint?] using owner
    have found' := Arena.mem_items_iff.mp member
    rw [found, Option.some.injEq] at found'
    rw [found']
    rfl

/-- **What is left out is skipped as far as its flaw reaches.** All free variables of a constraint
with a flaw are skipped. A feature that is broken either has a flaw of its own, and then all free
variables that it is built on are skipped; or it is built on different points, at least one of them
has a flaw, and the free variables of each such point are skipped. -/
theorem skips_left_out
    (done : session.solve numerals methods options sketch drag = (session', .ok result)) :
    ∃ pool blocks,
      Plan.compiled sketch (session.seeded sketch) sketch.flaws = .ok (pool, blocks) ∧
      (∀ h constraint, sketch.constraints.get? h = some constraint →
        h ∈ Plan.flawedConstraints sketch.flaws →
        ∀ v ∈ sketch.closure pool constraint.references, pool.isFree v = true →
          result.Skips v) ∧
      ∀ h feature, sketch.feature? h = some feature → h ∈ sketch.brokenFeatures sketch.flaws →
        (∀ v ∈ sketch.closure pool [h], pool.isFree v = true → result.Skips v) ∨
        sketch.Built h feature.kind feature.references ∧
          ∃ p ∈ feature.references, (∃ flaw ∈ sketch.flaws, flaw.feature? = some p) ∧
            ∀ v ∈ sketch.closure pool [p], pool.isFree v = true → result.Skips v := by
  obtain ⟨pool, blocks, compiled, blames⟩ := blames_of_solve done
  refine ⟨pool, blocks, compiled, ?_, ?_⟩
  · intro h constraint found flawed v touches free
    obtain ⟨flaw, listed, references⟩ := exists_flaw_of_flawedConstraint found flawed
    rw [← references] at touches
    exact blames.skips listed touches free
  · intro h feature found broken
    rcases Sketch.flaw_of_broken found broken with ⟨flaw, listed, owner⟩ | ⟨built, p, part, own⟩
    · exact .inl fun v touches free => blames.skips_of_owner listed owner touches free
    · obtain ⟨flaw, listed, owner⟩ := own
      exact .inr ⟨built, p, part, ⟨flaw, listed, owner⟩,
        fun v touches free => blames.skips_of_owner listed owner touches free⟩

end Leaving

/-! ### A part that is solved without its arc -/

/-- A point built on nothing that exists, an arc from it around a second point to a third, and a
radius demanded of the third. -/
noncomputable def looseArc : Sketch ℝ where
  features := ⟨[⟨some { Feature.point 0 0 false with references := [⟨9, 0⟩] }, 0⟩,
    ⟨some (.point 1 0 false), 0⟩, ⟨some (.point 1 1 false), 0⟩,
    ⟨some (.arc ⟨0, 0⟩ ⟨1, 0⟩ ⟨2, 0⟩ false), 0⟩]⟩
  constraints := ⟨[⟨some (.plain .radius [⟨2, 0⟩] (some 1) none), 0⟩]⟩
  groups := []

namespace LooseArc

noncomputable def rootless : Flaw ℝ := .feature ⟨0, 0⟩ .point [⟨9, 0⟩] (.count 0 1)

noncomputable def radius : Flaw ℝ := .constraint ⟨0, 0⟩ .radius [⟨2, 0⟩] (.kinds [.point])

noncomputable def plan : Plan ℝ where
  flaws := [rootless, radius]
  pool := Pool.ofSketch looseArc
  islands := [Lone.island 0 ⟨0, 0⟩, Lone.island 1 ⟨1, 0⟩, Lone.island 2 ⟨2, 0⟩]
  faults := [(0, rootless), (2, radius)]
  orphans := []
  dragging := false
  anchors := []
  targets := []

/-- The point that the arc goes around stays where it is drawn. -/
noncomputable def center : Plan.Solved ℝ := Lone.stay plan.pool 1 ⟨1, 0⟩ [1, 0]

noncomputable def gathered : Session.Gathered ℝ :=
  (((⟨plan.pool, .fresh, [], []⟩ : Session.Gathered ℝ).skip (Lone.island 0 ⟨0, 0⟩)
    [rootless]).take .fresh center Lone.diagnosis).skip (Lone.island 2 ⟨2, 0⟩) [radius]

noncomputable def result : Result ℝ :=
  ⟨(Session.addBound plan.islands gathered).updated, gathered.reports, [rootless, radius]⟩

theorem islands_eq : result.islands = [.skipped (Lone.island 0 ⟨0, 0⟩) [rootless],
    .ofDiagnosis (Lone.island 1 ⟨1, 0⟩) 0 center.outcome Lone.diagnosis false,
    .skipped (Lone.island 2 ⟨2, 0⟩) [radius]] := rfl

theorem solve_eq (methods : Methods ℝ) :
    Session.fresh.solve ⟨id, fun _ => ""⟩ methods Options.real looseArc none =
      (gathered.session, .ok result) := by
  have made : Plan.make looseArc (Session.fresh.seeded looseArc) none = .ok plan := by
    cbv
  obtain ⟨values, registered⟩ :
      ∃ values, islandValues plan.pool (Lone.island 1 ⟨1, 0⟩) = .ok values := ⟨_, by cbv⟩
  have all : plan.solvedAll methods Options.real = .ok [center] :=
    mapM_eq_ok_iff.mpr (.cons (Lone.solved methods rfl rfl registered (by cbv)) .nil)
  have gathering : Session.gather methods Options.real plan .fresh [center] plan.islands
      ⟨plan.pool, .fresh, [], []⟩ = (gathered, none) := by
    have first : plan.faultsOf (Lone.island 0 ⟨0, 0⟩).index = [rootless] := rfl
    have third : plan.faultsOf (Lone.island 2 ⟨2, 0⟩).index = [radius] := rfl
    calc Session.gather methods Options.real plan .fresh _ [_, _, _] _
      _ = _ := Session.gather_cons_of_faulty (by simp [first])
      _ = _ := Session.gather_cons_of_sound rfl rfl (Lone.diagnosed methods _ _ _ _)
      _ = _ := Session.gather_cons_of_faulty (by simp [third])
  rw [Session.solve_of_isUsable Options.isUsable_real made]
  exact Session.carryOut_of_gather all gathering rfl

end LooseArc

theorem skips_left_out_looseArc :
    Session.fresh.solve ⟨id, fun _ => ""⟩ Methods.orthogonal Options.real looseArc none =
      (LooseArc.gathered.session, .ok LooseArc.result) ∧
    ∃ pool blocks,
      Plan.compiled looseArc (Session.fresh.seeded looseArc) looseArc.flaws = .ok (pool, blocks) ∧
      (∀ h constraint, looseArc.constraints.get? h = some constraint →
        h ∈ Plan.flawedConstraints looseArc.flaws →
        ∀ v ∈ looseArc.closure pool constraint.references, pool.isFree v = true →
          LooseArc.result.Skips v) ∧
      ∀ h feature, looseArc.feature? h = some feature →
        h ∈ looseArc.brokenFeatures looseArc.flaws →
        (∀ v ∈ looseArc.closure pool [h], pool.isFree v = true → LooseArc.result.Skips v) ∨
        looseArc.Built h feature.kind feature.references ∧
          ∃ p ∈ feature.references, (∃ flaw ∈ looseArc.flaws, flaw.feature? = some p) ∧
            ∀ v ∈ looseArc.closure pool [p], pool.isFree v = true → LooseArc.result.Skips v :=
  ⟨LooseArc.solve_eq _, skips_left_out (LooseArc.solve_eq Methods.orthogonal)⟩

/-- **An arc can be left out while the point that it goes around is reported as solved.** -/
theorem exists_solved_without_arc :
    ∃ session result pool feature,
      Session.fresh.solve ⟨id, fun _ => ""⟩ Methods.orthogonal Options.real looseArc none =
        (session, .ok result) ∧
      Plan.compiled looseArc (Session.fresh.seeded looseArc) looseArc.flaws = .ok (pool, []) ∧
      looseArc.feature? ⟨3, 0⟩ = some feature ∧ feature.kind = .arc ∧
      ⟨3, 0⟩ ∈ looseArc.brokenFeatures looseArc.flaws ∧
      ⟨⟨1, 0⟩, .x⟩ ∈ looseArc.closure pool [⟨3, 0⟩] ∧ pool.isFree ⟨⟨1, 0⟩, .x⟩ = true ∧
      (∃ report ∈ result.islands, ⟨⟨1, 0⟩, .x⟩ ∈ report.unknowns ∧ report.status = .singular) ∧
      ¬result.Skips ⟨⟨1, 0⟩, .x⟩ := by
  refine ⟨LooseArc.gathered.session, LooseArc.result, LooseArc.plan.pool,
    .arc ⟨0, 0⟩ ⟨1, 0⟩ ⟨2, 0⟩ false, LooseArc.solve_eq _, ?_, rfl, rfl, ?_, ?_, ?_, ?_, ?_⟩
  · cbv
  · have broken : looseArc.brokenFeatures looseArc.flaws = [⟨3, 0⟩, ⟨0, 0⟩] := by cbv
    simp [broken]
  · have built : looseArc.closure LooseArc.plan.pool [⟨3, 0⟩] =
        coordinates [⟨0, 0⟩, ⟨1, 0⟩, ⟨2, 0⟩] := by cbv
    simp [built, coordinates]
  · cbv
  · exact ⟨_, List.mem_cons_of_mem _ List.mem_cons_self, List.mem_cons_self, rfl⟩
  · rintro ⟨report, reported, skipped, inside⟩
    rw [LooseArc.islands_eq] at reported
    fin_cases reported
    · simp [Report.skipped, Lone.island, Island.members, coordinates] at inside
    · cases skipped
    · simp [Report.skipped, Lone.island, Island.members, coordinates] at inside

/-! ### What is reported -/

section Reporting

variable {α : Type} [Scalar α] {ν : Type} [Ordered ν] {numerals : Numerals ν α}
  {session session' : Session α} {methods : Methods α} {options : Options ν} {sketch : Sketch α}
  {drag : Option (Drag α)} {result : Result α}

/-- **A variable goes without a value exactly when it is skipped**, and the coordinates of a point
that no constraint binds are reported together. -/
theorem coordinates_reported
    (done : session.solve numerals methods options sketch drag = (session', .ok result)) :
    ∃ pool blocks,
      Plan.compiled sketch (session.seeded sketch) sketch.flaws = .ok (pool, blocks) ∧
      (∀ v, (result.value? v).isSome = true ↔ v ∈ pool.keys ∧ ¬result.Skips v) ∧
      ∀ p, sketch.Point p → pool.isPinned p = false →
        ((result.value? ⟨p, .x⟩).isSome = true ↔ (result.value? ⟨p, .y⟩).isSome = true) := by
  obtain ⟨plan, blocks, -, made, components, told⟩ := exists_told_of_solve done
  have reported : ∀ v, (result.value? v).isSome = true ↔
      v ∈ plan.pool.keys ∧ ¬result.Skips v := by
    intro v
    rw [told.known, told.skips_iff]
  refine ⟨plan.pool, blocks, made.compiled, reported, fun p point loose => ?_⟩
  have registered : ∀ {v}, sketch.Registered v → v ∈ plan.pool.keys := by
    intro v registered
    rw [Sketch.keys_compile made.compiled, (session.sameShape_seeded sketch).keys]
    exact Pool.mem_keys_ofSketch.mpr registered
  obtain ⟨registeredX, registeredY⟩ := (Sketch.registered_point point).imp registered registered
  obtain ⟨unboundX, unboundY⟩ : plan.pool.binding? ⟨p, .x⟩ = none ∧
      plan.pool.binding? ⟨p, .y⟩ = none := by
    simpa [Pool.isPinned] using loose
  have freeX := Pool.isFree_iff.mpr ⟨registeredX, unboundX⟩
  have freeY := Pool.isFree_iff.mpr ⟨registeredY, unboundY⟩
  -- both are in one island
  obtain ⟨island, known, insideX, insideY⟩ :=
    (components.free_joined _ _ freeX freeY).mpr (.rel _ _ (.point freeX freeY))
  have skips : ∀ {v}, v ∈ island.unknowns →
      (result.Skips v ↔ plan.faultsOf island.index ≠ []) := by
    intro v inside
    rw [told.skips_iff]
    constructor
    · rintro ⟨other, known', faulty, inside'⟩
      rwa [Partition.island_unique made.islands known (List.mem_append_left _ inside) known'
        inside']
    · exact fun faulty => ⟨island, known, faulty, List.mem_append_left _ inside⟩
  rw [reported, reported, skips insideX, skips insideY]
  exact and_congr_left fun _ => iff_of_true registeredX registeredY

end Reporting

theorem coordinates_reported_looseArc :
    Session.fresh.solve ⟨id, fun _ => ""⟩ Methods.orthogonal Options.real looseArc none =
      (LooseArc.gathered.session, .ok LooseArc.result) ∧
    ∃ pool blocks,
      Plan.compiled looseArc (Session.fresh.seeded looseArc) looseArc.flaws = .ok (pool, blocks) ∧
      (∀ v, (LooseArc.result.value? v).isSome = true ↔
        v ∈ pool.keys ∧ ¬LooseArc.result.Skips v) ∧
      ∀ p, looseArc.Point p → pool.isPinned p = false →
        ((LooseArc.result.value? ⟨p, .x⟩).isSome = true ↔
          (LooseArc.result.value? ⟨p, .y⟩).isSome = true) :=
  ⟨LooseArc.solve_eq _, coordinates_reported (LooseArc.solve_eq Methods.orthogonal)⟩

/-! ### A point with half a position -/

/-- A line between two fixed points that has to be level, and a radius demanded of the first
point. -/
noncomputable def beam : Sketch ℝ where
  features := ⟨[⟨some (.point 0 0 false), 0⟩, ⟨some (.point 1 0 false), 0⟩,
    ⟨some (.line ⟨0, 0⟩ ⟨1, 0⟩ false), 0⟩]⟩
  constraints := ⟨[⟨some (.fixed ⟨0, 0⟩ ⟨0, 0⟩), 0⟩, ⟨some (.fixed ⟨1, 0⟩ ⟨1, 0⟩), 0⟩,
    ⟨some (.alongAxis ⟨2, 0⟩ .leftRight), 0⟩,
    ⟨some (.plain .radius [⟨0, 0⟩] (some 1) none), 0⟩]⟩
  groups := []

namespace Beam

noncomputable def flaw : Flaw ℝ := .constraint ⟨3, 0⟩ .radius [⟨0, 0⟩] (.kinds [.point])

/-- The island of the heights, to which the flaw adds the first point. -/
noncomputable def island : Island ℝ where
  index := 0
  unknowns := []
  pinned := [⟨⟨0, 0⟩, .x⟩, ⟨⟨0, 0⟩, .y⟩, ⟨⟨1, 0⟩, .y⟩]
  blocks := [⟨.constraint ⟨2, 0⟩ .alongAxis, .level ⟨⟨0, 0⟩, .y⟩ ⟨⟨1, 0⟩, .y⟩⟩]

noncomputable def plan : Plan ℝ where
  flaws := [flaw]
  pool := ((Pool.ofSketch beam).pin ⟨0, 0⟩ ⟨0, 0⟩ ⟨0, 0⟩).pin ⟨1, 0⟩ ⟨1, 0⟩ ⟨1, 0⟩
  islands := [island]
  faults := [(0, flaw)]
  orphans := []
  dragging := false
  anchors := []
  targets := []

noncomputable def gathered : Session.Gathered ℝ :=
  (⟨plan.pool, .fresh, [], []⟩ : Session.Gathered ℝ).skip island [flaw]

noncomputable def result : Result ℝ :=
  ⟨(Session.addBound plan.islands gathered).updated, gathered.reports, [flaw]⟩

theorem solve_eq (methods : Methods ℝ) :
    Session.fresh.solve ⟨id, fun _ => ""⟩ methods Options.real beam none =
      (gathered.session, .ok result) := by
  have made : Plan.make beam (Session.fresh.seeded beam) none = .ok plan := by
    cbv
  have all : plan.solvedAll methods Options.real = .ok [] := rfl
  have faults : plan.faultsOf island.index = [flaw] := rfl
  have gathering : Session.gather methods Options.real plan .fresh [] plan.islands
      ⟨plan.pool, .fresh, [], []⟩ = (gathered, none) :=
    Session.gather_cons_of_faulty (by simp [faults])
  rw [Session.solve_of_isUsable Options.isUsable_real made]
  exact Session.carryOut_of_gather all gathering rfl

end Beam

/-- **A fixed point can be reported with one of its coordinates alone.** -/
theorem exists_half_reported :
    ∃ session result,
      Session.fresh.solve ⟨id, fun _ => ""⟩ Methods.orthogonal Options.real beam none =
        (session, .ok result) ∧
      beam.Point ⟨1, 0⟩ ∧ result.value? ⟨⟨1, 0⟩, .x⟩ = some 1 ∧
      result.value? ⟨⟨1, 0⟩, .y⟩ = none := by
  refine ⟨Beam.gathered.session, Beam.result, Beam.solve_eq _, ⟨_, rfl, rfl⟩, ?_, ?_⟩
  · cbv
  · cbv

end PlaneSketch
