import Mathlib
import PlaneSketch.Proofs.Faults

/-!
What was checked never fails later.

The flaws of a drawing are found first; everything after that looks up references, positions and
columns without asking whether they are there. With the flawed constraints and the broken features
left out, each look-up finds what it looks for, whatever the drawing refers to.

* `compileConstraint_cases`: a fit constraint compiles, or asks for the direction of an infinite
  angle, which is no matter of structure.
* `exists_dragTargets`: a feature that is not broken has anchors, and each has a position and, when
  it is free, an island.
* `ready_or_infinite`: so every drawing is ready to be solved and dragged, up to such an angle.
-/

namespace PlaneSketch

variable {α : Type} [Scalar α]

/-! ### Compiling -/

/-- The constraint asks for the direction of an infinite angle. -/
def Constraint.AsksInfinite (constraint : Constraint α) : Prop :=
  constraint.kind = .angle ∧ Scalar.cosSin? constraint.measure = none

namespace Sketch

variable {sketch : Sketch α} {pool : Pool α} {h : Handle} {constraint : Constraint α}
  {kinds : List FeatureKind}

/-- Every number of a live feature is registered. -/
def Covers (sketch : Sketch α) (pool : Pool α) : Prop :=
  ∀ v, sketch.Registered v → v ∈ pool.keys

omit [Scalar α] in
theorem Covers.of_keys_eq {other : Pool α} (covers : sketch.Covers pool)
    (same : other.keys = pool.keys) : sketch.Covers other := by
  intro v registered
  rw [same]
  exact covers v registered

omit [Scalar α] in
theorem covers_of_sameShape (same : Pool.SameShape (Pool.ofSketch sketch) pool) :
    sketch.Covers pool := by
  intro v registered
  rw [same.keys]
  exact Pool.mem_keys_ofSketch.mpr registered

/-- The arcs that are not broken have three references. -/
theorem exists_arcBlocks (sketch : Sketch α) :
    ∃ blocks, sketch.arcBlocks (sketch.brokenFeatures sketch.flaws) = .ok blocks := by
  refine exists_mapM_eq_ok ?_
  rintro ⟨h, feature⟩ listed
  simp only [List.mem_filter, Arena.mem_items_iff, Bool.and_eq_true, decide_eq_true_eq] at listed
  obtain ⟨found, kind, sound⟩ := listed
  have built := built_of_unbroken found (by simpa using sound)
  rw [kind] at built
  obtain ⟨start, center, finish, references⟩ := built.arc_parts
  exact ⟨_, bind_eq_ok_iff.mpr
    ⟨_, arcRelation_eq_ok_iff.mpr ⟨start, center, finish, references, rfl⟩, rfl⟩⟩

/-- The relation of a fit constraint is found, unless it asks for an infinite angle. -/
theorem Fit.relationOf_cases (fit : sketch.Fit constraint kinds) (h : Handle) :
    (∃ relation, sketch.relationOf h constraint = .ok relation) ∨
      sketch.relationOf h constraint = .error .infiniteAngle ∧ constraint.AsksInfinite := by
  by_cases infinite : constraint.AsksInfinite
  · exact .inr ⟨relationOf_of_infinite h infinite.1 infinite.2, infinite⟩
  · obtain ⟨relation, demands⟩ := fit.exists_demands fun kind none => infinite ⟨kind, none⟩
    exact .inl ⟨relation, demands.compiles h⟩

/-- What a fit constraint fixes is registered. -/
theorem Fit.mem_keys_of_fixes (fit : sketch.Fit constraint kinds) (covers : sketch.Covers pool)
    {p : Handle} (fixes : constraint.Fixes p) : ⟨p, .x⟩ ∈ pool.keys ∧ ⟨p, .y⟩ ∈ pool.keys := by
  obtain ⟨r, references, point⟩ := fit.reference_of_fixed fixes.1
  obtain rfl : r = p := by simpa [references] using fixes.2
  exact ⟨covers _ (registered_point point).1, covers _ (registered_point point).2⟩

/-- **A fit constraint compiles**, unless it asks for an infinite angle. -/
theorem compileConstraint_cases (fit : sketch.Fit constraint kinds) (covers : sketch.Covers pool)
    (h : Handle) :
    (∃ pool' blocks, sketch.compileConstraint pool h constraint = .ok (pool', blocks)) ∨
      sketch.compileConstraint pool h constraint = .error .infiniteAngle ∧
        constraint.AsksInfinite := by
  by_cases fixing : ∃ p, constraint.Fixes p ∧ pool.isPinned p = false
  · obtain ⟨p, fixes, unpinned⟩ := fixing
    obtain ⟨hasX, hasY⟩ := fit.mem_keys_of_fixes covers fixes
    exact .inl ⟨_, _, compileConstraint_eq_ok_iff.mpr (.bound fixes unpinned hasX hasY)⟩
  · have pinned : ∀ p, constraint.Fixes p → pool.isPinned p = true := by
      intro p fixes
      by_contra unpinned
      exact fixing ⟨p, fixes, by simpa using unpinned⟩
    rcases fit.relationOf_cases h with ⟨relation, found⟩ | ⟨failed, infinite⟩
    · exact .inl ⟨_, _, compileConstraint_eq_ok_iff.mpr (.block pinned found)⟩
    · refine .inr ⟨?_, infinite⟩
      have kind : constraint.kind ≠ .fixed := by
        rw [infinite.1]
        decide
      rw [compileConstraint, if_neg kind, failed]
      rfl

/-- **Fit constraints compile one after the other**, unless one asks for an infinite angle. -/
theorem compileConstraints_cases {items : List (Handle × Constraint α)}
    (fit : ∀ item ∈ items, ∃ kinds, sketch.Fit item.2 kinds) (covers : sketch.Covers pool) :
    (∃ pool' blocks, sketch.compileConstraints pool items = .ok (pool', blocks)) ∨
      sketch.compileConstraints pool items = .error .infiniteAngle ∧
        ∃ item ∈ items, item.2.AsksInfinite := by
  induction items generalizing pool with
  | nil => exact .inl ⟨pool, [], rfl⟩
  | cons item items ih =>
    obtain ⟨h, constraint⟩ := item
    obtain ⟨kinds, fits⟩ := fit (h, constraint) List.mem_cons_self
    rcases compileConstraint_cases fits covers h with
      ⟨between, own, compiled⟩ | ⟨failed, infinite⟩
    · have keys : between.keys = pool.keys := by
        cases compileConstraint_eq_ok_iff.mp compiled with
        | bound => exact Pool.keys_pin _ _ _ _
        | block => rfl
      rcases ih (fun later listed => fit later (List.mem_cons_of_mem _ listed))
        (covers.of_keys_eq keys) with ⟨pool', others, rest⟩ | ⟨failed, later, listed, infinite⟩
      · exact .inl ⟨pool', _, compileConstraints_cons_eq_ok_iff.mpr
          ⟨between, own, others, compileConstraint_eq_ok_iff.mp compiled, rest, rfl⟩⟩
      · refine .inr ⟨?_, later, List.mem_cons_of_mem _ listed, infinite⟩
        rw [compileConstraints, compiled]
        simp only [bind, Except.bind, failed]
    · refine .inr ⟨?_, _, List.mem_cons_self, infinite⟩
      rw [compileConstraints, failed]
      rfl

/-- A live constraint without a flaw asks for the direction of an infinite angle. -/
def AsksInfinite (sketch : Sketch α) : Prop :=
  ∃ h constraint, sketch.constraints.get? h = some constraint ∧
    h ∉ Plan.flawedConstraints sketch.flaws ∧ constraint.AsksInfinite

/-- **What was checked compiles**, with everything flawed left out. -/
theorem compiled_cases (covers : sketch.Covers pool) :
    (∃ pool' blocks, Plan.compiled sketch pool sketch.flaws = .ok (pool', blocks)) ∨
      Plan.compiled sketch pool sketch.flaws = .error .infiniteAngle ∧ sketch.AsksInfinite := by
  obtain ⟨arcs, compiledArcs⟩ := sketch.exists_arcBlocks
  have fit : ∀ item ∈ sketch.kept (Plan.flawedConstraints sketch.flaws),
      ∃ kinds, sketch.Fit item.2 kinds := by
    rintro ⟨h, constraint⟩ listed
    obtain ⟨found, sound⟩ := mem_kept_iff.mp listed
    exact fit_of_not_flawed found sound
  rcases compileConstraints_cases fit covers with
    ⟨pool', others, compiled⟩ | ⟨failed, ⟨h, constraint⟩, listed, infinite⟩
  · exact .inl ⟨pool', _, compile_eq_ok_iff.mpr ⟨arcs, others, compiledArcs, compiled, rfl⟩⟩
  · obtain ⟨found, sound⟩ := mem_kept_iff.mp listed
    refine .inr ⟨?_, h, constraint, found, sound, infinite⟩
    rw [Plan.compiled, compile, compiledArcs, ← kept.eq_1]
    simp only [bind, Except.bind, failed]

/-- What compiles asks for no infinite angle. -/
theorem not_asksInfinite_of_compiled {pool' : Pool α} {blocks : List (Block α)}
    (compiled : Plan.compiled sketch pool sketch.flaws = .ok (pool', blocks)) :
    ¬sketch.AsksInfinite := by
  rintro ⟨h, constraint, found, sound, kind, infinite⟩
  obtain ⟨arcs, others, -, constraints, -⟩ := compile_eq_ok_iff.mp compiled
  rcases block_of_mem constraints (mem_kept_iff.mpr ⟨found, sound⟩) with
    ⟨block, -, -, relation⟩ | ⟨p, fixes, -⟩
  · rw [relationOf_of_infinite h kind infinite] at relation
    cases relation
  · rw [fixes.1] at kind
    cases kind

/-! ### Dragging -/

/-- **A live feature that is not broken has anchors**, and all are points. -/
theorem exists_dragAnchors {feature : Feature α} (found : sketch.feature? h = some feature)
    (sound : h ∉ sketch.brokenFeatures sketch.flaws) :
    ∃ anchors, sketch.dragAnchors h = .ok anchors ∧ ∀ p ∈ anchors, sketch.Point p := by
  have built := built_of_unbroken found sound
  have live : sketch.liveFeature h = .ok feature := by rw [liveFeature, found]
  cases kind : feature.kind <;> rw [kind] at built
  case point =>
    refine ⟨[h], ?_, ?_⟩
    · simp only [dragAnchors, live, bind, Except.bind, kind]
      rfl
    · simpa using built.point
  case line =>
    refine ⟨feature.references.take 2, ?_, ?_⟩
    · simp only [dragAnchors, live, bind, Except.bind, kind]
      rfl
    · exact fun p listed => built.points p (List.mem_of_mem_take listed)
  case circle =>
    obtain ⟨center, references⟩ := built.circle_parts
    refine ⟨[center], ?_, ?_⟩
    · simp only [dragAnchors, live, bind, Except.bind, kind, references]
      rfl
    · simpa [references] using built.points
  case arc =>
    obtain ⟨start, center, finish, references⟩ := built.arc_parts
    refine ⟨[center], ?_, ?_⟩
    · simp only [dragAnchors, live, bind, Except.bind, kind, references]
      rfl
    · have points := built.points
      simp only [references, List.mem_cons, List.not_mem_nil, or_false, forall_eq_or_imp,
        forall_eq] at points
      simpa using points.2.1
  case gear =>
    obtain ⟨center, references⟩ := List.length_eq_one_iff.mp built.count
    refine ⟨[center], ?_, ?_⟩
    · simp only [dragAnchors, live, bind, Except.bind, kind, references]
      rfl
    · simpa [references] using built.points

end Sketch

/-! ### Values and islands -/

omit [Scalar α] in
theorem Pool.exists_value {pool : Pool α} {v : Variable} (registered : v ∈ pool.keys) :
    ∃ value, pool.value v = .ok value := by
  obtain ⟨entry, found⟩ := Pool.mem_keys_iff.mp registered
  exact ⟨entry.value, by rw [Pool.value, found]⟩

omit [Scalar α] in
/-- A point has a position in a pool that covers the drawing. -/
theorem Sketch.Point.exists_position {sketch : Sketch α} {pool : Pool α} {p : Handle}
    (point : sketch.Point p) (covers : sketch.Covers pool) :
    ∃ position, pool.point p = .ok position := by
  obtain ⟨x, foundX⟩ := Pool.exists_value (covers _ (Sketch.registered_point point).1)
  obtain ⟨y, foundY⟩ := Pool.exists_value (covers _ (Sketch.registered_point point).2)
  exact ⟨⟨x, y⟩, bind_eq_ok_iff.mpr ⟨x, foundX, bind_eq_ok_iff.mpr ⟨y, foundY, rfl⟩⟩⟩

section Islands

variable {pool : Pool α} {blocks : List (Block α)} {links : List (List Variable)}
  {islands : List (Island α)} {island : Island α}

/-- The equations of an island are set up when all that its blocks read is registered. -/
theorem exists_ofIsland (done : partition pool blocks links = .ok islands)
    (known : island ∈ islands)
    (registered : ∀ block ∈ blocks, ∀ v ∈ block.unknowns, v ∈ pool.keys) :
    ∃ system, Equations.ofIsland pool island = .ok system := by
  have members : ∀ v ∈ island.members, v ∈ pool.keys := fun v inside =>
    Partition.mem_keys_of_mem done known inside
  have within : ∀ block ∈ island.blocks, block ∈ blocks := by
    obtain ⟨root, -, rfl⟩ := Partition.exists_root done known
    exact fun block listed => (Partition.mem_blocks_islandAt.mp listed).1
  obtain ⟨values, valued⟩ : ∃ values, islandValues pool island = .ok values := by
    refine exists_mapM_eq_ok fun v listed => ?_
    have key : v ∈ pool.keys := by
      rcases List.mem_append.mp listed with inside | read
      · exact members v inside
      · obtain ⟨block, listed', reads⟩ := List.mem_flatMap.mp read
        exact registered block (within block listed') v reads
    obtain ⟨value, found⟩ := Pool.exists_value key
    exact ⟨(v, value), bind_eq_ok_iff.mpr ⟨value, found, rfl⟩⟩
  obtain ⟨start, started⟩ : ∃ start, island.unknowns.mapM pool.value = .ok start :=
    exists_mapM_eq_ok fun v unknown =>
      Pool.exists_value (members v (List.mem_append_left _ unknown))
  exact ⟨_, bind_eq_ok_iff.mpr ⟨values, valued, bind_eq_ok_iff.mpr ⟨start, started, rfl⟩⟩⟩

/-- **Points are pulled wherever the target is**, and the free ones lie in islands. -/
theorem exists_dragTargets {sketch : Sketch α} {anchors : List Handle}
    (done : partition pool blocks links = .ok islands) (covers : sketch.Covers pool)
    (points : ∀ p ∈ anchors, sketch.Point p) (target : Vec2 α) :
    (∃ targets, dragTargets pool islands anchors target = .ok targets) ∧
      ∀ p ∈ anchors, pool.isFree ⟨p, .x⟩ = true →
        ∃ index, islandOf? islands ⟨p, .x⟩ = some index := by
  constructor
  · obtain ⟨located, found⟩ : ∃ located,
        (anchors.mapM fun h => do return (h, ← pool.point h)) = .ok located := by
      refine exists_mapM_eq_ok fun p listed => ?_
      obtain ⟨position, found⟩ := (points p listed).exists_position covers
      exact ⟨(p, position), bind_eq_ok_iff.mpr ⟨position, found, rfl⟩⟩
    exact ⟨_, bind_eq_ok_iff.mpr ⟨located, found, rfl⟩⟩
  · intro p _ free
    obtain ⟨island, known, inside⟩ := Partition.exists_island_of_free done free
    exact ⟨island.index, (Partition.islandOf?_eq_some_iff done).mpr ⟨island, known, rfl, inside⟩⟩

/-- **What was checked falls into islands**, whatever else is linked, and the equations of each
are set up. -/
theorem exists_islands {sketch : Sketch α} {start : Pool α}
    (same : Pool.SameShape (Pool.ofSketch sketch) start)
    (compiled : Plan.compiled sketch start sketch.flaws = .ok (pool, blocks))
    (links : List (List Variable)) : ∃ islands, partition pool blocks links = .ok islands ∧
      ∀ island ∈ islands, ∃ system, Equations.ofIsland pool island = .ok system := by
  have placeable : ∀ block ∈ blocks, Partition.Placeable pool block := fun block listed =>
    Partition.placeable_of_compiled same compiled listed
  have done : partition pool blocks links = .ok _ := Partition.partition_of_placeable placeable
  exact ⟨_, done, fun island known =>
    exists_ofIsland done known fun block listed => (placeable block listed).registered⟩

end Islands

/-! ### A whole drawing -/

/-- A drawing can be solved and dragged from here: whatever else is linked, its blocks are grouped
into islands, the equations of each island are set up, and each feature that is not broken is
pulled to any target by anchors of which the free ones lie in islands. -/
def Sketch.Ready (sketch : Sketch α) (pool : Pool α) (blocks : List (Block α)) : Prop :=
  ∀ links, ∃ islands, partition pool blocks links = .ok islands ∧
    (∀ island ∈ islands, ∃ system, Equations.ofIsland pool island = .ok system) ∧
    ∀ h, sketch.isLive h = true → h ∉ sketch.brokenFeatures sketch.flaws →
      ∃ anchors, sketch.dragAnchors h = .ok anchors ∧
        (∀ target, ∃ targets, dragTargets pool islands anchors target = .ok targets) ∧
        ∀ p ∈ anchors, pool.isFree ⟨p, .x⟩ = true →
          ∃ index, islandOf? islands ⟨p, .x⟩ = some index

/-- **What was checked never fails for its structure.** For every drawing, with everything flawed
left out and the pool seeded with any values: each live feature that is not broken has anchors, all
of them points, and compiling either gives blocks from which the drawing is ready to be solved and
dragged, or it meets a constraint that asks for an infinite angle. -/
theorem ready_or_infinite (sketch : Sketch α) (warm : List (Variable × α)) :
    (∀ h, sketch.isLive h = true → h ∉ sketch.brokenFeatures sketch.flaws →
      ∃ anchors, sketch.dragAnchors h = .ok anchors ∧ ∀ p ∈ anchors, sketch.Point p) ∧
    ((∃ pool blocks, Plan.compiled sketch ((Pool.ofSketch sketch).seed warm).1 sketch.flaws =
        .ok (pool, blocks) ∧ sketch.Ready pool blocks) ∨
      Plan.compiled sketch ((Pool.ofSketch sketch).seed warm).1 sketch.flaws =
        .error .infiniteAngle ∧ sketch.AsksInfinite) := by
  have anchored : ∀ h, sketch.isLive h = true → h ∉ sketch.brokenFeatures sketch.flaws →
      ∃ anchors, sketch.dragAnchors h = .ok anchors ∧ ∀ p ∈ anchors, sketch.Point p := by
    intro h live sound
    obtain ⟨feature, found⟩ := Sketch.isLive_iff.mp live
    exact Sketch.exists_dragAnchors found sound
  have same := Pool.sameShape_seed (Pool.ofSketch sketch) warm
  refine ⟨anchored, (Sketch.compiled_cases (Sketch.covers_of_sameShape same)).imp_left ?_⟩
  rintro ⟨pool, blocks, compiled⟩
  refine ⟨pool, blocks, compiled, fun links => ?_⟩
  have covers : sketch.Covers pool :=
    (Sketch.covers_of_sameShape same).of_keys_eq (Sketch.keys_compile compiled)
  obtain ⟨islands, done, equations⟩ := exists_islands same compiled links
  refine ⟨islands, done, equations, fun h live sound => ?_⟩
  obtain ⟨anchors, listed, points⟩ := anchored h live sound
  exact ⟨anchors, listed, fun target => (exists_dragTargets done covers points target).1,
    (exists_dragTargets done covers points ⟨0, 0⟩).2⟩

end PlaneSketch
