import Mathlib
import PlaneSketch.Proofs.Gather

/-!
Success means that the drawing is solved.

A solve checks each island by itself, over its own free variables and with everything bound put in
as a constant. `Result.Solves` speaks of the whole drawing at the values reported.

* `exists_settled_of_solve`: a solve of a drawing without flaws plans with all its blocks.
* `abs_lt_of_settled`: each block is checked in its island, at the values that are reported.
* `exists_solves`: a successful result solves the drawing, whatever the least-squares method does.
-/

namespace PlaneSketch

variable {α : Type} [Scalar α]

/-! ### The plan of a drawing -/

section Planning

variable {sketch : Sketch α} {pool : Pool α} {drag : Option (Drag α)} {plan : Plan α}
  {blocks : List (Block α)}

/-- What a plan is made of, apart from what a drag adds. -/
structure Plan.Made (sketch : Sketch α) (pool : Pool α) (plan : Plan α) (blocks : List (Block α)) :
    Prop where
  flaws : plan.flaws = sketch.flaws
  compiled : Plan.compiled sketch pool sketch.flaws = .ok (plan.pool, blocks)
  islands : Plan.islandsOf sketch plan.pool blocks sketch.flaws = .ok plan.islands
  allocated : (plan.faults, plan.orphans) =
    Plan.allocate sketch plan.pool plan.islands sketch.flaws

theorem Plan.exists_made (made : Plan.make sketch pool drag = .ok plan) :
    ∃ blocks, Plan.Made sketch pool plan blocks := by
  simp only [make, bind_eq_ok_iff] at made
  obtain ⟨⟨pool', blocks⟩, compiled, islands, partitioned, made⟩ := made
  have same : ∃ anchors targets, plan = ⟨sketch.flaws, pool', islands,
      (allocate sketch pool' islands sketch.flaws).1,
      (allocate sketch pool' islands sketch.flaws).2, drag.isSome, anchors, targets⟩ := by
    cases drag with
    | none =>
      cases made
      exact ⟨_, _, rfl⟩
    | some drag =>
      obtain ⟨_, -, made⟩ := bind_eq_ok_iff.mp made
      cases made
      exact ⟨_, _, rfl⟩
  obtain ⟨anchors, targets, rfl⟩ := same
  exact ⟨blocks, rfl, compiled, partitioned, rfl⟩

/-- The plan without a drag. -/
def Plan.still (sketch : Sketch α) (pool : Pool α) (islands : List (Island α)) : Plan α where
  flaws := sketch.flaws
  pool := pool
  islands := islands
  faults := (allocate sketch pool islands sketch.flaws).1
  orphans := (allocate sketch pool islands sketch.flaws).2
  dragging := false
  anchors := []
  targets := []

theorem Plan.make_none {start pool : Pool α} {islands : List (Island α)}
    (compiled : Plan.compiled sketch start sketch.flaws = .ok (pool, blocks))
    (partitioned : Plan.islandsOf sketch pool blocks sketch.flaws = .ok islands) :
    Plan.make sketch start none = .ok (Plan.still sketch pool islands) := by
  simp only [make, compiled, partitioned, bind, Except.bind]
  rfl

/-- What a drag adds to a plan. -/
theorem Plan.drag_of_make (made : Plan.make sketch pool drag = .ok plan) :
    plan.dragging = drag.isSome ∧
      match drag with
      | none => plan.anchors = [] ∧ plan.targets = []
      | some drag => dragged sketch plan.pool plan.islands (sketch.brokenFeatures sketch.flaws)
          drag = .ok (plan.anchors, plan.targets) := by
  simp only [make, bind_eq_ok_iff] at made
  obtain ⟨⟨pool', blocks⟩, -, islands, -, made⟩ := made
  cases drag with
  | none =>
    cases made
    exact ⟨rfl, rfl, rfl⟩
  | some drag =>
    obtain ⟨⟨anchors, targets⟩, found, made⟩ := bind_eq_ok_iff.mp made
    cases made
    exact ⟨rfl, found⟩

/-- A drag of a broken feature pulls nothing; any other pulls the anchors of the feature. -/
theorem Plan.dragged_cases {pool : Pool α} {islands : List (Island α)} {broken : List Handle}
    {drag : Drag α} {anchors : List Handle} {targets : List (Nat × Vec2 α)}
    (done : dragged sketch pool islands broken drag = .ok (anchors, targets)) :
    drag.feature ∈ broken ∧ anchors = [] ∧ targets = [] ∨
      drag.feature ∉ broken ∧ sketch.dragAnchors drag.feature = .ok anchors ∧
        dragTargets pool islands anchors drag.target = .ok targets := by
  obtain ⟨_, -, done⟩ := bind_eq_ok_iff.mp done
  split at done
  · rename_i unfit
    cases done
    exact .inl ⟨by simpa using unfit, rfl, rfl⟩
  · rename_i fit
    obtain ⟨anchors', listed, done⟩ := bind_eq_ok_iff.mp done
    obtain ⟨targets', found, done⟩ := bind_eq_ok_iff.mp done
    cases done
    exact .inr ⟨by simpa using fit, listed, found⟩

/-- The islands of a plan are the components of its blocks, with what each flaw touches joined. -/
theorem Plan.Made.components (made : Plan.Made sketch pool plan blocks)
    (same : Pool.SameShape (Pool.ofSketch sketch) pool) :
    Partition.Components plan.pool blocks (sketch.flaws.map (Plan.touched sketch plan.pool))
      plan.islands :=
  Partition.components_of_compiled same made.compiled made.islands

namespace Plan.Made

variable (made : Plan.Made sketch pool plan blocks) (flawless : sketch.flaws = [])

include made flawless

theorem partition_eq : partition plan.pool blocks [] = .ok plan.islands := by
  have islands := made.islands
  rwa [Plan.islandsOf, flawless] at islands

theorem compile_eq : sketch.compile pool [] [] = .ok (plan.pool, blocks) := by
  rw [← Sketch.compiled_of_flawless flawless]
  exact made.compiled

/-- Nothing keeps an island of a drawing without flaws from being solved. -/
theorem faults_eq_nil : plan.faults = [] ∧ plan.orphans = [] := by
  have allocated := made.allocated
  rw [flawless] at allocated
  exact ⟨congrArg Prod.fst allocated, congrArg Prod.snd allocated⟩

end Plan.Made

end Planning

/-- With settings that the solver can run with, a solve makes a plan and carries it out. -/
theorem Session.solve_of_isUsable {ν : Type} [Ordered ν] {numerals : Numerals ν α}
    {session : Session α} {methods : Methods α} {options : Options ν} {sketch : Sketch α}
    {drag : Option (Drag α)} {plan : Plan α} (usable : options.isUsable = true)
    (made : Plan.make sketch
      ((Pool.ofSketch sketch).seed (session.prune (Pool.ofSketch sketch)).cache).1 drag =
        .ok plan) :
    session.solve numerals methods options sketch drag =
      (session.prune (Pool.ofSketch sketch)).carryOut methods (options.map numerals.value)
        plan := by
  unfold Session.solve Options.check
  rw [if_pos usable]
  unfold Session.solveWith
  simp only [made]

/-- Carrying out a plan returns what is gathered, when every flaw has an island. -/
theorem Session.carryOut_of_gather {session : Session α} {methods : Methods α}
    {options : Options α} {plan : Plan α} {all : List (Plan.Solved α)}
    {gathered : Session.Gathered α} (solved : plan.solvedAll methods options = .ok all)
    (gathering : Session.gather methods options plan session all plan.islands
      ⟨plan.pool, session, [], []⟩ = (gathered, none))
    (housed : plan.orphans = []) :
    session.carryOut methods options plan = (gathered.session,
      .ok ⟨(Session.addBound plan.islands gathered).updated, gathered.reports, plan.flaws⟩) := by
  unfold Session.carryOut
  simp only [solved, gathering, housed]
  rfl

/-- The standard settings in real numbers. -/
noncomputable def Options.real : Options ℝ := .standard Scalar.ofDecimal

theorem Options.isUsable_real : Options.real.isUsable = true := by
  norm_num [isUsable, problems, demand, real, standard, Scalar.ofDecimal]

theorem Options.tolerance_real_pos : 0 < Options.real.tolerance := by
  norm_num [real, standard, Scalar.ofDecimal]

theorem Options.rankTolerance_real : Options.real.rankTolerance = 1 / 10 ^ 8 := by
  norm_num [real, standard, Scalar.ofDecimal]

/-- A solve that ends with a result has carried out a plan with the settings given. -/
theorem Session.exists_of_solve {ν : Type} [Ordered ν] {numerals : Numerals ν α}
    {session session' : Session α} {methods : Methods α} {options : Options ν} {sketch : Sketch α}
    {drag : Option (Drag α)} {result : Result α}
    (done : session.solve numerals methods options sketch drag = (session', .ok result)) :
    ∃ plan, Plan.make sketch
        ((Pool.ofSketch sketch).seed (session.prune (Pool.ofSketch sketch)).cache).1 drag =
          .ok plan ∧
      (session.prune (Pool.ofSketch sketch)).carryOut methods (options.map numerals.value) plan =
        (session', .ok result) := by
  unfold Session.solve Options.check at done
  split at done
  · cases done
  · rename_i checked usable
    split at usable
    · cases usable
      unfold Session.solveWith at done
      dsimp only at done
      split at done
      · cases done
      · exact ⟨_, ‹_›, done⟩
    · cases usable

/-- What a solve reports as flaws are those of the drawing. -/
theorem flaws_of_solve {ν : Type} [Ordered ν] {numerals : Numerals ν α}
    {session session' : Session α} {methods : Methods α} {options : Options ν} {sketch : Sketch α}
    {drag : Option (Drag α)} {result : Result α}
    (done : session.solve numerals methods options sketch drag = (session', .ok result)) :
    result.flaws = sketch.flaws := by
  obtain ⟨plan, made, carried⟩ := Session.exists_of_solve done
  obtain ⟨blocks, made⟩ := Plan.exists_made made
  obtain ⟨all, gathered, -, -, rfl⟩ := exists_of_carryOut carried
  exact made.flaws

/-- **A solve of a drawing without flaws** plans with all its blocks, whatever is remembered, and
settles the plan. -/
theorem exists_settled_of_solve {ν : Type} [Ordered ν] {numerals : Numerals ν α}
    {session session' : Session α} {methods : Methods α} {options : Options ν} {sketch : Sketch α}
    {drag : Option (Drag α)} {result : Result α} (flawless : sketch.flaws = [])
    (done : session.solve numerals methods options sketch drag = (session', .ok result)) :
    ∃ start plan blocks values, Pool.SameShape (Pool.ofSketch sketch) start ∧
      Plan.Made sketch start plan blocks ∧
      (∀ block ∈ blocks, Partition.Placeable plan.pool block) ∧
      Partition.Components plan.pool blocks [] plan.islands ∧
      Settled plan (options.map numerals.value) result values := by
  obtain ⟨plan, made, carried⟩ := Session.exists_of_solve done
  obtain ⟨blocks, made⟩ := Plan.exists_made made
  have same := Pool.sameShape_seed (Pool.ofSketch sketch)
    (session.prune (Pool.ofSketch sketch)).cache
  have placeable : ∀ block ∈ blocks, Partition.Placeable plan.pool block := fun block listed =>
    Partition.placeable_of_compiled same made.compiled listed
  have islands := made.partition_eq flawless
  have components := Partition.components_of_partition placeable islands
  obtain ⟨faultless, orphanless⟩ := made.faults_eq_nil flawless
  obtain ⟨values, settled⟩ := exists_settled components islands faultless orphanless carried
  exact ⟨_, plan, blocks, values, same, made, placeable, components, settled⟩

/-! ### Nothing is left out -/

section Coverage

variable {sketch : Sketch α} {pool pool' : Pool α} {blocks : List (Block α)} {h : Handle}

theorem block_of_arc_of_compile (done : sketch.compile pool [] [] = .ok (pool', blocks))
    {feature : Feature α} (found : sketch.feature? h = some feature)
    (kind : feature.kind = .arc) : ∃ block ∈ blocks, block.owner = .arc h := by
  obtain ⟨arcs, others, features, -, rfl⟩ := Sketch.compile_eq_ok_iff.mp done
  obtain ⟨block, listed, owner⟩ := Sketch.block_of_arc features found kind List.not_mem_nil
  exact ⟨block, List.mem_append_left _ listed, owner⟩

theorem block_of_constraint_of_compile (done : sketch.compile pool [] [] = .ok (pool', blocks))
    {constraint : Constraint α} (found : sketch.constraints.get? h = some constraint) :
    (∃ block ∈ blocks, block.owner = .constraint h constraint.kind ∧
      sketch.relationOf h constraint = .ok block.relation) ∨
    ∃ p, Sketch.firstFix? sketch.constraints.items p = some (h, constraint) := by
  obtain ⟨arcs, others, -, constraints, rfl⟩ := Sketch.compile_eq_ok_iff.mp done
  have member : (h, constraint) ∈ sketch.kept [] :=
    Sketch.mem_kept_iff.mpr ⟨found, List.not_mem_nil⟩
  rcases Sketch.block_of_mem constraints member with ⟨block, listed, owner⟩ | ⟨p, -, -, first⟩
  · exact .inl ⟨block, List.mem_append_right _ listed, owner⟩
  · exact .inr ⟨p, by simpa [Sketch.kept] using first⟩

end Coverage

/-! ### Points that are fixed -/

section Fixing

variable {sketch : Sketch α} {pool pool' : Pool α} {blocks : List (Block α)} {p h : Handle}
  {constraint : Constraint α}

theorem Sketch.Fit.reference_of_fixed {kinds : List FeatureKind} (fit : sketch.Fit constraint kinds)
    (kind : constraint.kind = .fixed) : ∃ r, constraint.references = [r] ∧ sketch.Point r := by
  obtain ⟨form, listed, shapes⟩ := fit.form
  rw [kind] at listed
  obtain rfl := List.mem_singleton.mp listed
  obtain ⟨r, point, references⟩ := eq_of_forall₂_one shapes
  exact ⟨r, references, Sketch.point_of_isPoint point⟩

/-- In a drawing without flaws a constraint that fixes something refers to one point. -/
theorem reference_of_flawless (flawless : sketch.flaws = [])
    (found : sketch.constraints.get? h = some constraint) (kind : constraint.kind = .fixed) :
    ∃ r, constraint.references = [r] ∧ sketch.Point r := by
  obtain ⟨kinds, fit⟩ := Sketch.fit_of_not_flawed found (by simp [flawless])
  exact fit.reference_of_fixed kind

/-- The first constraint that fixes something and refers to a point. -/
def Sketch.fixOf? (sketch : Sketch α) (p : Handle) : Option (Handle × Constraint α) :=
  sketch.constraints.items.find? fun item => item.2.kind = .fixed ∧ p ∈ item.2.references

/-- In a drawing without flaws this is the one that binds the point. -/
theorem firstFix?_of_flawless (flawless : sketch.flaws = []) (p : Handle) :
    Sketch.firstFix? sketch.constraints.items p = sketch.fixOf? p := by
  refine List.find?_congr ?_
  rintro ⟨h, constraint⟩ listed
  rw [decide_eq_decide]
  refine and_congr_right fun kind => ?_
  obtain ⟨r, references, -⟩ := reference_of_flawless flawless (Arena.mem_items_iff.mp listed) kind
  simp [references, eq_comm]

/-- **The first constraint that fixes a point** gives it its position. -/
theorem entry?_of_firstFix? (unbound : ∀ v, pool.binding? v = none)
    (done : sketch.compile pool [] [] = .ok (pool', blocks))
    (first : Sketch.firstFix? sketch.constraints.items p = some (h, constraint))
    (component : Component) :
    pool'.entry? ⟨p, component⟩ =
      (pool.entry? ⟨p, component⟩).map fun entry =>
        Pool.pinnedEntry entry constraint.position h := by
  obtain ⟨arcs, others, -, constraints, -⟩ := Sketch.compile_eq_ok_iff.mp done
  have all : sketch.kept [] = sketch.constraints.items := by simp [Sketch.kept]
  have loose : pool.isPinned p = false := by simp [Pool.isPinned, unbound]
  rw [Sketch.entry?_compileConstraints constraints, all]
  simp [loose, first]

/-- A coordinate of a fixed point is bound, and to the position that it is fixed at. -/
theorem coordinate_of_firstFix? (unbound : ∀ v, pool.binding? v = none)
    (done : sketch.compile pool [] [] = .ok (pool', blocks))
    (first : Sketch.firstFix? sketch.constraints.items p = some (h, constraint))
    {component : Component} {value : α} (registered : ⟨p, component⟩ ∈ pool.keys)
    (coordinate : component = .x ∧ value = constraint.position.x ∨
      component = .y ∧ value = constraint.position.y) :
    pool'.isFree ⟨p, component⟩ = false ∧ pool'.valuation ⟨p, component⟩ = value := by
  obtain ⟨entry, found⟩ := Pool.mem_keys_iff.mp registered
  have key := Pool.key_of_found found
  have pinned := entry?_of_firstFix? unbound done first component
  rw [found, Option.map_some] at pinned
  rw [Pool.valuation_of_found pinned, Pool.isFree, pinned]
  rcases coordinate with ⟨rfl, rfl⟩ | ⟨rfl, rfl⟩
  · simp [Pool.pinnedEntry, key]
  · simp [Pool.pinnedEntry, key]

/-- A fixed point is reported where the first constraint fixes it. -/
theorem value?_of_fixed {plan : Plan α} {options : Options α} {result : Result α}
    {values : Valuation α} (flawless : sketch.flaws = [])
    (same : Pool.SameShape (Pool.ofSketch sketch) pool) (made : Plan.Made sketch pool plan blocks)
    (settled : Settled plan options result values)
    (first : Sketch.firstFix? sketch.constraints.items p = some (h, constraint))
    {component : Component} {value : α}
    (coordinate : component = .x ∧ value = constraint.position.x ∨
      component = .y ∧ value = constraint.position.y) :
    result.value? ⟨p, component⟩ = some value := by
  have compiled := made.compile_eq flawless
  have unbound := Pool.unbound_of_sameShape same
  have found := Arena.mem_items_iff.mp (List.mem_of_find?_eq_some first)
  have fixes : constraint.Fixes p := by simpa using List.find?_some first
  obtain ⟨r, references, point⟩ := reference_of_flawless flawless found fixes.1
  obtain rfl : r = p := by simpa [references] using fixes.2
  have registered : (⟨r, component⟩ : Variable) ∈ pool.keys := by
    rw [same.keys, Pool.mem_keys_ofSketch]
    rcases coordinate with ⟨rfl, -⟩ | ⟨rfl, -⟩
    · exact (Sketch.registered_point point).1
    · exact (Sketch.registered_point point).2
  obtain ⟨bound, position⟩ := coordinate_of_firstFix? unbound compiled first registered coordinate
  rw [settled.reported _ (by rwa [Sketch.keys_compile compiled]), settled.bound _ bound, position]

end Fixing

/-! ### Every block in its island -/

section Checking

variable {plan : Plan ℝ} {options : Options ℝ} {result : Result ℝ} {values : Valuation ℝ}
  {blocks : List (Block ℝ)} {links : List (List Variable)} {block : Block ℝ}

/-- **Each block is checked in its island, at the values that are reported**: what is free in it is
solved for there, and the rest is bound to the constants that the island was solved with. -/
theorem abs_lt_of_settled
    (components : Partition.Components plan.pool blocks links plan.islands)
    (settled : Settled plan options result values)
    (converged : ∀ report ∈ result.islands, report.status.isConverged = true)
    (listed : block ∈ blocks) {r : ℝ} (row : r ∈ block.residual values) :
    |r| < options.tolerance := by
  obtain ⟨island, ⟨member, within⟩, -⟩ := components.block_once block listed
  obtain ⟨s, rfl, evaluates, position, report, reported, status⟩ := settled.evaluated island member
  obtain ⟨x, steps, -, outcome⟩ := evaluates.outcome
  have found : s.outcome.x = x := by rw [outcome]; rfl
  have agree : ∀ v ∈ block.unknowns, values v = s.system.valuation x v := by
    intro v read
    by_cases unknown : v ∈ s.island.unknowns
    · rw [position v unknown, found]
    · have bound : plan.pool.isFree v = false := by
        rw [Bool.eq_false_iff]
        exact fun free => unknown (components.block_free s.island member block within v read free)
      rw [settled.bound v bound, evaluates.system]
      exact (Equations.valuation_of_not_mem unknown x).symm
  rw [block.residual_congr agree] at row
  have residual : r ∈ s.system.residuals x := by
    rw [Equations.residuals, List.mem_flatMap]
    refine ⟨block, ?_, row⟩
    rw [evaluates.system]
    exact within
  rw [← Plan.tolerance_optionsFor plan options s.island.index]
  have below : (s.system.outcomeAt (plan.optionsFor options s.island.index) x steps).converged =
      true := by
    rw [← outcome, ← status]
    exact converged report reported
  exact Equations.abs_lt_of_converged below residual

end Checking

/-! ### The whole drawing -/

/-- The values that a result reports. -/
def Result.valuation (result : Result α) : Valuation α := fun v => (result.value? v).getD 0

/-- The drawing holds at the values reported: fixed points stand where they are fixed, and the
blocks, which are those of all arcs and of all constraints that are not the first to fix their
point, are below the tolerance in each row. -/
structure Result.Solves (result : Result ℝ) (sketch : Sketch ℝ) (blocks : List (Block ℝ))
    (tolerance : ℝ) : Prop where
  fixed : ∀ p h constraint, sketch.fixOf? p = some (h, constraint) →
    result.value? ⟨p, .x⟩ = some constraint.position.x ∧
      result.value? ⟨p, .y⟩ = some constraint.position.y
  arcs : ∀ h feature, sketch.feature? h = some feature → feature.kind = .arc →
    ∃ block ∈ blocks, block.owner = .arc h
  constraints : ∀ h constraint, sketch.constraints.get? h = some constraint →
    (∃ block ∈ blocks, block.owner = .constraint h constraint.kind ∧
      sketch.relationOf h constraint = .ok block.relation) ∨
    ∃ p, sketch.fixOf? p = some (h, constraint)
  /-- no variable of a block goes without a value -/
  known : ∀ block ∈ blocks, ∀ v ∈ block.unknowns, (result.value? v).isSome = true
  below : ∀ block ∈ blocks, ∀ r ∈ block.residual result.valuation, |r| < tolerance

section Success

variable {ν : Type} [Ordered ν] {numerals : Numerals ν ℝ} {session session' : Session ℝ}
  {methods : Methods ℝ} {options : Options ν} {sketch : Sketch ℝ} {drag : Option (Drag ℝ)}
  {result : Result ℝ}

/-- **Success means that the drawing is solved.** For every drawing, all settings that pass the
check, every drag and whatever is remembered, a successful result reports fixed points where they
are fixed and all variables of all blocks, and every row of every block of the whole drawing is
below the tolerance at the values reported. -/
theorem exists_solves
    (solved : session.solve numerals methods options sketch drag = (session', .ok result))
    (success : result.success = true) :
    ∃ pool blocks, sketch.compile (Pool.ofSketch sketch) [] [] = .ok (pool, blocks) ∧
      result.Solves sketch blocks (numerals.value options.tolerance) := by
  obtain ⟨unflawed, converged⟩ := Bool.and_eq_true_iff.mp success
  have flawless : sketch.flaws = [] := by
    rw [← flaws_of_solve solved]
    simpa using unflawed
  obtain ⟨start, plan, blocks, values, same, made, placeable, components, settled⟩ :=
    exists_settled_of_solve flawless solved
  obtain ⟨pool, compiled, -⟩ := Sketch.compile_of_sameShape same.symm (made.compile_eq flawless)
  have reported : ∀ block ∈ blocks, ∀ v ∈ block.unknowns, result.value? v = some (values v) :=
    fun block listed v read => settled.reported v ((placeable block listed).registered v read)
  refine ⟨pool, blocks, compiled, ?_, ?_, ?_, ?_, ?_⟩
  · intro p h constraint first
    rw [← firstFix?_of_flawless flawless] at first
    constructor
    · exact value?_of_fixed flawless same made settled first (.inl ⟨rfl, rfl⟩)
    · exact value?_of_fixed flawless same made settled first (.inr ⟨rfl, rfl⟩)
  · intro h feature found kind
    exact block_of_arc_of_compile compiled found kind
  · intro h constraint found
    refine (block_of_constraint_of_compile compiled found).imp_right ?_
    rintro ⟨p, first⟩
    exact ⟨p, (firstFix?_of_flawless flawless p).symm.trans first⟩
  · intro block listed v read
    rw [reported block listed v read]
    rfl
  · intro block listed r row
    have agree : ∀ v ∈ block.unknowns, result.valuation v = values v := by
      intro v read
      rw [Result.valuation, reported block listed v read]
      rfl
    rw [block.residual_congr agree] at row
    exact abs_lt_of_settled components settled (List.all_eq_true.mp converged) listed row

end Success

/-! ### Islands at rest -/

section AtRest

variable {methods : Methods ℝ} {options : Options ℝ} {plan : Plan ℝ} {island : Island ℝ}
  {x : List ℝ} {values : List (Variable × ℝ)}

/-- An island whose equations hold stays where it is when nothing is dragged. -/
theorem solved_at_rest (methods : Methods ℝ) (undragged : plan.dragging = false)
    (unpulled : plan.targets = []) (registered : islandValues plan.pool island = .ok values)
    (start : island.unknowns.mapM plan.pool.value = .ok x)
    (rest : ∀ r ∈ (Equations.mk island.blocks island.unknowns plan.pool.valuation).residuals x,
      r = 0)
    (positive : 0 < options.tolerance) :
    let system := Equations.mk island.blocks island.unknowns plan.pool.valuation
    plan.solved methods options island =
      .ok ⟨island, system, system.outcomeAt options x 0⟩ := by
  intro system
  have target : plan.target? island.index = none := by
    rw [Plan.target?, unpulled]
    rfl
  refine Plan.solved_of_registered registered start ?_
  rw [Plan.pull?_of_target? target, Plan.optionsFor_of_undragged undragged]
  exact congrArg Attempt.outcome (Equations.solve_at_rest methods rest positive)

/-- Equations that hold and are independent leave the freedom that they do not use up. -/
theorem diagnose_of_independent {pool : Pool ℝ} {system : Equations ℝ} {outcome : Outcome ℝ}
    (converged : outcome.converged = true)
    (rank : Rank.numeric? methods outcome.jacobian options.rankTolerance = some system.rows) :
    diagnose methods options pool system outcome = .ok {
      status := if system.rows < system.free.length then .singular else .converged
      classification := if (system.free.length - system.rows : Int) = 0 then .fullyConstrained
        else .underConstrained
      rank := system.rows
      dof := system.free.length - system.rows
      dependent := []
      redundant := []
      conflicting := [] } := by
  simp only [diagnose, rank, converged, bind, Except.bind, Diagnosis.blamed, lt_irrefl, if_false,
    if_true, pure, Except.pure]
  rfl

end AtRest

/-! ### A point by itself -/

namespace Lone

/-- The island of the coordinates of one point, with no blocks. -/
def island (index : Nat) (point : Handle) : Island ℝ := ⟨index, coordinates [point], [], []⟩

/-- Nothing is demanded of the point. -/
noncomputable def system (pool : Pool ℝ) (point : Handle) : Equations ℝ :=
  ⟨[], coordinates [point], pool.valuation⟩

/-- The point stays where it is. -/
noncomputable def stay (pool : Pool ℝ) (index : Nat) (point : Handle) (x : List ℝ) :
    Plan.Solved ℝ :=
  ⟨island index point, system pool point, (system pool point).outcomeAt Options.real x 0⟩

/-- The point can move both ways. -/
def diagnosis : Diagnosis := ⟨.singular, .underConstrained, 0, 2, [], [], []⟩

variable {pool : Pool ℝ} {point : Handle} {x : List ℝ}

theorem at_rest (pool : Pool ℝ) (point : Handle) (x : List ℝ) :
    ∀ r ∈ (system pool point).residuals x, r = 0 := by
  simp [system, Equations.residuals]

theorem diagnosed (methods : Methods ℝ) (other pool : Pool ℝ) (point : Handle) (x : List ℝ) :
    diagnose methods Options.real other (system pool point)
      ((system pool point).outcomeAt Options.real x 0) = .ok diagnosis :=
  diagnose_of_independent
    (Equations.converged_at_rest (at_rest pool point x) Options.tolerance_real_pos 0) rfl

theorem solved (methods : Methods ℝ) {plan : Plan ℝ} {index : Nat}
    {values : List (Variable × ℝ)} (undragged : plan.dragging = false)
    (unpulled : plan.targets = [])
    (registered : islandValues plan.pool (island index point) = .ok values)
    (start : (coordinates [point]).mapM plan.pool.value = .ok x) :
    plan.solved methods Options.real (island index point) =
      .ok (stay plan.pool index point x) :=
  solved_at_rest methods undragged unpulled registered start (at_rest plan.pool point x)
    Options.tolerance_real_pos

end Lone

/-! ### A drawing that holds as it is remembered -/

/-- A point drawn apart from where it is fixed, and a point that has to be level with it. -/
noncomputable def levelled : Sketch ℝ where
  features := ⟨[⟨some (.point 1 1 false), 0⟩, ⟨some (.point 1 (-1) false), 0⟩,
    ⟨some (.line ⟨0, 0⟩ ⟨1, 0⟩ false), 0⟩]⟩
  constraints := ⟨[⟨some (.fixed ⟨0, 0⟩ ⟨0, 0⟩), 0⟩, ⟨some (.alongAxis ⟨2, 0⟩ .leftRight), 0⟩]⟩
  groups := []

namespace Levelled

/-- The second point is remembered level with the first. -/
noncomputable def remembered : Session ℝ := ⟨[(⟨⟨1, 0⟩, .x⟩, 1), (⟨⟨1, 0⟩, .y⟩, 0)]⟩

noncomputable def settings : Options ℝ := .standard Scalar.ofDecimal

/-- The island of the second point. -/
noncomputable def island : Island ℝ where
  index := 0
  unknowns := coordinates [⟨1, 0⟩]
  pinned := []
  blocks := [⟨.constraint ⟨1, 0⟩ .alongAxis, .level ⟨⟨0, 0⟩, .y⟩ ⟨⟨1, 0⟩, .y⟩⟩]

/-- The pool with what is remembered, and the first point bound. -/
noncomputable def pool : Pool ℝ :=
  ((Pool.ofSketch levelled).seed remembered.cache).1.pin ⟨0, 0⟩ ⟨0, 0⟩ ⟨0, 0⟩

noncomputable def plan : Plan ℝ where
  flaws := []
  pool := pool
  islands := [island]
  faults := []
  orphans := []
  dragging := false
  anchors := []
  targets := []

noncomputable def system : Equations ℝ := ⟨island.blocks, island.unknowns, pool.valuation⟩

/-- The outcome of stopping where the drawing is remembered. -/
noncomputable def outcome : Outcome ℝ := system.outcomeAt settings [1, 0] 0

theorem jacobian_eq : outcome.jacobian = [[0, 1]] := by
  simp [outcome, Equations.outcomeAt, Equations.jacobian, system, island, Block.jacobian,
    Relation.gradient, Relation.slots, Block.partialBy, coordinates]

theorem at_rest : ∀ r ∈ system.residuals [1, 0], r = 0 := by
  have residuals : system.residuals [1, 0] = [0 - 0] := by cbv
  simp [residuals]

theorem tolerance_pos : 0 < settings.tolerance := Options.tolerance_real_pos

/-- The descent ends where it starts. -/
theorem solved : plan.solved Methods.orthogonal settings island =
    .ok ⟨island, system, outcome⟩ := by
  have values : ∃ values, islandValues plan.pool island = .ok values := ⟨_, by cbv⟩
  obtain ⟨values, registered⟩ := values
  exact solved_at_rest _ rfl rfl registered (by cbv) at_rest tolerance_pos

/-- A matrix of one row has its length as only singular value. -/
theorem rank_eq : Rank.numeric? Methods.orthogonal [[(0 : ℝ), 1]] settings.rankTolerance =
    some 1 := by
  have gauge : LeastSquares.gauge [0, 1] = (1 : ℝ) := by
    norm_num [LeastSquares.gauge, Vector.maxAbs, Scalar.greater_real, Scalar.ofDecimal, Scalar.abs]
  have length : SingularValues.compute [[(0 : ℝ), 1]] = [1] := by
    simp [SingularValues.compute, gauge, SingularValues.orthogonalise, SingularValues.sweep,
      SingularValues.pass, SingularValues.insertDecreasing, Vector.norm, Vector.dot, Vector.sum,
      Scalar.sqrt]
  have values : (Methods.orthogonal (α := ℝ)).singularValues? [[0, 1]] = some [1] := by
    simp [Methods.orthogonal, length, Matrix.isFinite, Scalar.isFinite]
  norm_num [Rank.numeric?, values, Matrix.size, Scalar.raise, settings, Options.standard,
    Scalar.ofDecimal]

/-- The second point can still move along the axis. -/
def diagnosis : Diagnosis where
  status := .singular
  classification := .underConstrained
  rank := 1
  dof := 1
  dependent := []
  redundant := []
  conflicting := []

theorem diagnosed : diagnose Methods.orthogonal settings pool system outcome = .ok diagnosis :=
  diagnose_of_independent (Equations.converged_at_rest at_rest tolerance_pos 0)
    (by rw [jacobian_eq]; exact rank_eq)

/-- The island taken in, whatever is remembered. -/
noncomputable def taken (warm : Session ℝ) : Session.Gathered ℝ :=
  Session.Gathered.take warm ⟨pool, warm, [], []⟩ ⟨island, system, outcome⟩ diagnosis

noncomputable def gathered : Session.Gathered ℝ :=
  Session.Gathered.take remembered ⟨pool, remembered, [], []⟩ ⟨island, system, outcome⟩ diagnosis

noncomputable def result : Result ℝ :=
  ⟨(Session.addBound [island] gathered).updated, gathered.reports, []⟩

theorem carryOut_eq (warm : Session ℝ) : warm.carryOut Methods.orthogonal settings plan =
    ((taken warm).session,
      .ok ⟨(Session.addBound [island] (taken warm)).updated, (taken warm).reports, []⟩) := by
  have all : plan.solvedAll Methods.orthogonal settings = .ok [⟨island, system, outcome⟩] :=
    mapM_eq_ok_iff.mpr (.cons solved .nil)
  have gathering : Session.gather Methods.orthogonal settings plan warm
      [⟨island, system, outcome⟩] plan.islands ⟨plan.pool, warm, [], []⟩ =
        (taken warm, none) := by
    have islands : plan.islands = [island] := rfl
    have faultless : plan.faultsOf island.index = [] := rfl
    have same : plan.pool = pool := rfl
    simp only [islands, same, Session.gather, faultless, List.isEmpty_nil, if_true,
      List.find?_cons, decide_true, diagnosed]
    rfl
  exact Session.carryOut_of_gather all gathering rfl

theorem solve_eq : remembered.solve ⟨id, fun _ => ""⟩ Methods.orthogonal settings levelled none =
    (gathered.session, .ok result) := by
  have pruned : remembered.prune (Pool.ofSketch levelled) = remembered := by cbv
  have made : Plan.make levelled ((Pool.ofSketch levelled).seed
      (remembered.prune (Pool.ofSketch levelled)).cache).1 none = .ok plan := by
    cbv
  have usable : settings.isUsable = true := Options.isUsable_real
  rw [Session.solve_of_isUsable usable made, pruned]
  exact carryOut_eq remembered

end Levelled

theorem exists_solves_levelled :
    Levelled.remembered.solve ⟨id, fun _ => ""⟩ Methods.orthogonal Levelled.settings levelled none =
      (Levelled.gathered.session, .ok Levelled.result) ∧
    Levelled.result.success = true ∧
    ∃ pool blocks, levelled.compile (Pool.ofSketch levelled) [] [] = .ok (pool, blocks) ∧
      Levelled.result.Solves levelled blocks Levelled.settings.tolerance :=
  ⟨Levelled.solve_eq, rfl, exists_solves Levelled.solve_eq rfl⟩

end PlaneSketch
