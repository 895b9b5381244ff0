import Mathlib
import PlaneSketch.Proofs.Accounts
import PlaneSketch.Proofs.Interruption
import PlaneSketch.Proofs.Rank
import PlaneSketch.Proofs.Translation

/-!
An island that is anchored nowhere can be moved as a whole.

An island is unanchored when none of its blocks reads a bound variable. The block of a constraint
that fixes a point always reads one, so the blocks of such an island do not notice a translation
(`movable_of_unbound`), and it holds both coordinates of each of its points
(`coordinates_together`). The two translations along the axes are then independent vectors of the
kernel, and whatever is reported of the island leaves room for them.

* `Equations.Floats.finrank_add_two_le`: the rank is at least two below the number of free
  variables.
* `loose_of_diagnose`: a diagnosis of such a rank calls nothing fully constrained.
-/

namespace PlaneSketch

/-! ### What the blocks of an unanchored island say -/

section Blocks

variable {α : Type} [Scalar α] {sketch : Sketch α} {start pool : Pool α} {blocks : List (Block α)}

/-- A fit constraint can be moved, unless it fixes the point that its relation speaks of. -/
theorem Sketch.Demands.movable_or_fixes {constraint : Constraint α} {relation : Relation α}
    (demands : sketch.Demands constraint relation) :
    relation.Movable ∨ ∃ p, constraint.Fixes p ∧ ⟨p, .x⟩ ∈ relation.slots := by
  cases demands with
  | @fixed p kind references _ =>
    exact .inr ⟨p, ⟨kind, by rw [references]; rfl⟩, List.mem_cons_self⟩
  | lengthOfLine _ _ _ | lengthOfPoints _ _ _ _ =>
    refine .inl ?_
    unfold Sketch.lengthRelation
    split <;> trivial
  | horizontal _ _ _ _ | vertical _ _ _ _ => exact .inl rfl
  | _ => exact .inl trivial

/-- **A block that reads no bound variable does not notice a translation**: what fixes a point in
place reads the point, and some constraint binds it. -/
theorem movable_of_unbound (same : Pool.SameShape (Pool.ofSketch sketch) start)
    (compiled : Plan.compiled sketch start sketch.flaws = .ok (pool, blocks)) {block : Block α}
    (listed : block ∈ blocks) (unbound : ∀ v ∈ block.unknowns, pool.binding? v = none) :
    block.relation.Movable := by
  obtain ⟨arcs, others, features, constraints, rfl⟩ := Sketch.compile_eq_ok_iff.mp compiled
  rcases List.mem_append.mp listed with ofArc | ofConstraint
  · obtain ⟨_, _, _, _, _, -, -, -, -, rfl⟩ := Sketch.arc_of_mem features ofArc
    trivial
  obtain ⟨h, constraint, kept, -, related⟩ := Sketch.constraint_of_mem constraints ofConstraint
  obtain ⟨found, sound⟩ := Sketch.mem_kept_iff.mp kept
  obtain ⟨kinds, fit⟩ := Sketch.fit_of_not_flawed found sound
  rcases (fit.demands related).movable_or_fixes with movable | ⟨p, fixes, slot⟩
  · exact movable
  · -- the first constraint that fixes the point binds it
    exfalso
    obtain ⟨registered, -⟩ := fit.mem_keys_of_fixes (Sketch.covers_of_sameShape same) fixes
    have first : Sketch.firstFix? (sketch.kept _) p ≠ none := fun none => by
      simpa [fixes] using List.find?_eq_none.mp none _ kept
    obtain ⟨⟨other, constraint'⟩, first⟩ := Option.ne_none_iff_exists'.mp first
    have bound := (Sketch.binding?_compile_iff (Pool.unbound_of_sameShape same) compiled).mpr
      ⟨registered, by simp, constraint', first⟩
    rw [unbound _ (mem_firstOccurrences.mpr slot)] at bound
    cases bound

end Blocks

/-! ### The island of a point -/

section Coordinates

variable {α : Type} [Scalar α] {sketch : Sketch α} {start pool : Pool α} {blocks : List (Block α)}
  {links : List (List Variable)} {islands : List (Island α)} {island : Island α}

/-- No block of the island reads a bound variable. -/
def Island.Unanchored (island : Island α) (pool : Pool α) : Prop :=
  ∀ block ∈ island.blocks, ∀ v ∈ block.unknowns, pool.binding? v = none

/-- The island has a free coordinate of the point. -/
def Island.Holds (island : Island α) (p : Handle) : Prop :=
  ⟨p, .x⟩ ∈ island.unknowns ∨ ⟨p, .y⟩ ∈ island.unknowns

omit [Scalar α] in
theorem registered_coordinates_iff {p : Handle} :
    sketch.Registered ⟨p, .x⟩ ↔ sketch.Registered ⟨p, .y⟩ := by
  refine exists_congr fun feature => and_congr_right fun _ => ?_
  cases kind : feature.kind <;> simp [FeatureKind.components]

/-- The coordinates of a point are free together: what binds one binds the other. -/
theorem isFree_coordinates_iff (same : Pool.SameShape (Pool.ofSketch sketch) start)
    (compiled : Plan.compiled sketch start sketch.flaws = .ok (pool, blocks)) {p : Handle} :
    pool.isFree ⟨p, .x⟩ = true ↔ pool.isFree ⟨p, .y⟩ = true := by
  have unbound := Pool.unbound_of_sameShape same
  have keys : ⟨p, .x⟩ ∈ start.keys ↔ ⟨p, .y⟩ ∈ start.keys := by
    rw [same.keys, Pool.mem_keys_ofSketch, Pool.mem_keys_ofSketch]
    exact registered_coordinates_iff
  have bindings : pool.binding? ⟨p, .x⟩ = pool.binding? ⟨p, .y⟩ := Option.ext fun h => by
    rw [Sketch.binding?_compile_iff unbound compiled, Sketch.binding?_compile_iff unbound compiled,
      keys]
    simp
  rw [Pool.isFree_iff, Pool.isFree_iff, bindings, Sketch.keys_compile compiled, keys]

/-- **The coordinates of a point are in one island.** -/
theorem coordinates_together (same : Pool.SameShape (Pool.ofSketch sketch) start)
    (compiled : Plan.compiled sketch start sketch.flaws = .ok (pool, blocks))
    (parted : partition pool blocks links = .ok islands) (member : island ∈ islands) {p : Handle}
    (holds : island.Holds p) : ⟨p, .x⟩ ∈ island.unknowns ∧ ⟨p, .y⟩ ∈ island.unknowns := by
  have components := Partition.components_of_compiled same compiled parted
  have free := components.unknowns_free island member
  have together := isFree_coordinates_iff same compiled (p := p)
  obtain ⟨freeX, freeY⟩ : pool.isFree ⟨p, .x⟩ = true ∧ pool.isFree ⟨p, .y⟩ = true :=
    holds.elim (fun inside => ⟨free _ inside, together.mp (free _ inside)⟩)
      fun inside => ⟨together.mpr (free _ inside), free _ inside⟩
  obtain ⟨other, known, insideX, insideY⟩ :=
    (components.free_joined _ _ freeX freeY).mpr (.rel _ _ (.point freeX freeY))
  -- one of them is known to be here
  have unique : ∀ {v}, v ∈ island.unknowns → v ∈ other.unknowns → other = island :=
    fun inside inside' => Partition.island_unique parted known (List.mem_append_left _ inside')
      member (List.mem_append_left _ inside)
  obtain rfl : other = island := holds.elim (unique · insideX) (unique · insideY)
  exact ⟨insideX, insideY⟩

/-- **Nothing holds an unanchored island in place.** -/
theorem floats_of_unanchored (same : Pool.SameShape (Pool.ofSketch sketch) start)
    (compiled : Plan.compiled sketch start sketch.flaws = .ok (pool, blocks))
    (parted : partition pool blocks links = .ok islands) (member : island ∈ islands)
    (unanchored : island.Unanchored pool) (constants : Valuation α) :
    (Equations.mk island.blocks island.unknowns constants).Floats := by
  have components := Partition.components_of_compiled same compiled parted
  refine ⟨Partition.nodup_unknowns parted member, fun block listed v slot => ?_,
    fun block listed => ?_⟩
  · have read : v ∈ block.unknowns := mem_firstOccurrences.mpr slot
    have known := (components.blocks_order island member).subset listed
    have placeable := Partition.placeable_of_compiled same compiled known
    have free := Pool.isFree_iff.mpr
      ⟨placeable.registered v read, unanchored block listed v read⟩
    exact components.block_free island member block listed v read free
  · exact movable_of_unbound same compiled ((components.blocks_order island member).subset listed)
      (unanchored block listed)

end Coordinates

/-! ### Rank and report -/

section Rank

open Module

variable {system : Equations ℝ}

/-- The velocities of the free variables in a translation. -/
noncomputable def Equations.shift (system : Equations ℝ) (u : Vec2 ℝ) :
    EuclideanSpace ℝ (Fin system.free.length) :=
  WithLp.toLp 2 fun j => translation u system.free[j]

theorem Equations.dot_shift (row : List ℝ) (u : Vec2 ℝ) :
    Vector.dot row (List.ofFn (system.shift u)) = along system.free row (translation u) := by
  have velocities : List.ofFn (system.shift u) = system.free.map (translation u) :=
    List.ofFn_getElem_eq_map system.free (translation u)
  rw [velocities, Vector.dot, Vector.sum_real, along, List.zipWith_map_right, List.zipWith_comm]

/-- Two translations are independent where a point has both its coordinates. -/
theorem Equations.linearIndependent_shift {p : Handle} (hasX : ⟨p, .x⟩ ∈ system.free)
    (hasY : ⟨p, .y⟩ ∈ system.free) :
    LinearIndependent ℝ ![system.shift ⟨1, 0⟩, system.shift ⟨0, 1⟩] := by
  obtain ⟨i, hi, atX⟩ := List.getElem_of_mem hasX
  obtain ⟨j, hj, atY⟩ := List.getElem_of_mem hasY
  refine LinearIndependent.pair_iff.mpr fun s t vanish => ?_
  have first := congrArg (· ⟨i, hi⟩) vanish
  have second := congrArg (· ⟨j, hj⟩) vanish
  simp only [shift, PiLp.add_apply, PiLp.smul_apply, Fin.getElem_fin, atX, atY, translation,
    smul_eq_mul, PiLp.zero_apply] at first second
  constructor
  · linarith
  · linarith

/-- **The rank leaves room for two translations.** -/
theorem Equations.Floats.finrank_add_two_le (floats : system.Floats) {p : Handle}
    (hasX : ⟨p, .x⟩ ∈ system.free) (hasY : ⟨p, .y⟩ ∈ system.free) (x : List ℝ) :
    finrank ℝ ((system.jacobian x).linearMap system.free.length).range + 2 ≤
      system.free.length := by
  have kernel : ∀ u, (system.jacobian x).linearMap system.free.length (system.shift u) = 0 := by
    intro u
    refine Matrix.linearMap_eq_zero (system.shape_jacobian x).2 fun row listed => ?_
    rw [dot_shift, floats.along_translation u x row listed]
  refine Matrix.finrank_range_add_le (linearIndependent_shift hasX hasY) fun i => ?_
  fin_cases i
  · exact kernel _
  · exact kernel _

/-- **With exact singular values the numeric rank is found and leaves as much room.** -/
theorem Equations.Floats.exists_numeric? {methods : Methods ℝ} (exact : methods.ExactValues)
    (floats : system.Floats) {p : Handle} (hasX : ⟨p, .x⟩ ∈ system.free)
    (hasY : ⟨p, .y⟩ ∈ system.free) (x : List ℝ) {tolerance : ℝ} (nonneg : 0 ≤ tolerance) :
    ∃ rank, Rank.numeric? methods (system.jacobian x) tolerance = some rank ∧
      rank + 2 ≤ system.free.length := by
  obtain ⟨rank, found, least⟩ :=
    Rank.exists_numeric?_le exact (system.shape_jacobian x).2 nonneg
  have room := floats.finrank_add_two_le hasX hasY x
  exact ⟨rank, found, by omega⟩

end Rank

section Reports

/-- What is reported leaves room for two translations, and nothing in it calls the island fully
constrained. -/
structure Report.Loose {α : Type} (report : Report α) : Prop where
  rank : report.rank + 2 ≤ report.freeVariables
  dof : 2 ≤ report.dof
  status : report.status ≠ .converged
  classification : report.classification ≠ some .fullyConstrained

variable {α : Type} [Scalar α]

/-- An island that is skipped is as loose as it has free variables. -/
theorem Report.loose_skipped {island : Island α} (room : 2 ≤ island.unknowns.length)
    (flaws : List (Flaw α)) : (Report.skipped island flaws).Loose where
  rank := by simpa [Report.skipped] using room
  dof := Int.ofNat_le.mpr room
  status := by simp [Report.skipped]
  classification := by simp [Report.skipped]

/-- A diagnosis of a rank that leaves room for two calls nothing fully constrained. -/
theorem loose_of_diagnose {methods : Methods α} {options : Options α} {pool : Pool α}
    {system : Equations α} {outcome : Outcome α} {diagnosis : Diagnosis} {rank : Nat}
    {island : Island α} (free : system.free = island.unknowns)
    (ranked : Rank.numeric? methods outcome.jacobian options.rankTolerance = some rank)
    (room : rank + 2 ≤ island.unknowns.length)
    (done : diagnose methods options pool system outcome = .ok diagnosis) (warmStarted : Bool) :
    (Report.ofDiagnosis island system.rows outcome diagnosis warmStarted).Loose := by
  unfold diagnose at done
  dsimp only at done
  rw [ranked, free] at done
  obtain ⟨_, same, rest⟩ := bind_eq_ok_iff.mp done
  obtain rfl := Except.ok.inj same
  obtain ⟨dependent, -, rest⟩ := bind_eq_ok_iff.mp rest
  have deficient : rank < island.unknowns.length := by omega
  have freedom : (2 : Int) ≤ island.unknowns.length - rank := by omega
  have unequal : (island.unknowns.length : Int) - rank ≠ 0 := by omega
  rw [if_pos deficient, if_neg unequal] at rest
  split at rest
  · cases rest
    exact ⟨room, freedom, by simp [Report.ofDiagnosis], by simp [Report.ofDiagnosis]⟩
  · cases rest
    exact ⟨room, freedom, by simp [Report.ofDiagnosis], by simp [Report.ofDiagnosis]⟩

/-- Settings that can be used count singular values above a positive bound. -/
theorem Options.rankTolerance_pos {ν : Type} [Ordered ν] {options : Options ν}
    (usable : options.isUsable = true) : Ordered.lt 0 options.rankTolerance = true := by
  by_contra below
  simp [isUsable, problems, demand, below] at usable

/-- A solve that ends with a result had settings that can be used. -/
theorem Session.isUsable_of_solve {ν : Type} [Ordered ν] {numerals : Numerals ν α}
    {session session' : Session α} {methods : Methods α} {options : Options ν} {sketch : Sketch α}
    {drag : Option (Drag α)} {result : Result α}
    (done : session.solve numerals methods options sketch drag = (session', .ok result)) :
    options.isUsable = true := by
  unfold Session.solve Options.check at done
  split at done
  · cases done
  · rename_i checked usable
    split at usable
    · assumption
    · cases usable

end Reports

/-! ### Every solve -/

/-- Orthogonal steps and exact singular values are found for every matrix of reals. -/
theorem Methods.strict_spectral : Methods.spectral.Strict where
  step := Methods.strict_orthogonal.step
  values rows := (Matrix.isFinite_real rows).symm

section Solving

variable {ν : Type} [Ordered ν] {numerals : Numerals ν ℝ} {methods : Methods ℝ}
  {session : Session ℝ} {sketch : Sketch ℝ} {pool : Pool ℝ} {blocks : List (Block ℝ)}
  {islands : List (Island ℝ)} {island : Island ℝ}

/-- **An unanchored island can be moved, and is never called fully constrained.** Wherever its free
variables stand, every row of its Jacobian adds up to zero over the columns of each axis, at
distances of zero too. So if it holds a point, then with exact singular values its rank is at least
two below the number of free variables, and every solve that ends with a result reports as much. -/
theorem loose_of_unanchored (nonneg : ∀ v, Ordered.lt 0 v = true → 0 ≤ numerals.value v)
    (exact : methods.ExactValues)
    (compiled : Plan.compiled sketch (session.seeded sketch) sketch.flaws = .ok (pool, blocks))
    (parted : Plan.islandsOf sketch pool blocks sketch.flaws = .ok islands)
    (member : island ∈ islands) (unanchored : island.Unanchored pool) :
    (∀ constants x, ∀ row ∈ (Equations.mk island.blocks island.unknowns constants).jacobian x,
      columnsSum .x island.unknowns row = 0 ∧ columnsSum .y island.unknowns row = 0) ∧
    ∀ p, island.Holds p →
      (∀ constants x tolerance, 0 ≤ tolerance → ∃ rank, Rank.numeric? methods
        ((Equations.mk island.blocks island.unknowns constants).jacobian x) tolerance = some rank ∧
          rank + 2 ≤ island.unknowns.length) ∧
      ∀ options drag session' result,
        session.solve numerals methods options sketch drag = (session', .ok result) →
          ∃ report, result.islands[island.index]? = some report ∧
            report.unknowns = island.members ∧ report.freeVariables = island.unknowns.length ∧
            report.Loose := by
  have same := session.sameShape_seeded sketch
  have floats := floats_of_unanchored same compiled parted member unanchored
  refine ⟨fun constants => (floats constants).columnsSum_eq_zero, fun p holds => ?_⟩
  obtain ⟨hasX, hasY⟩ := coordinates_together same compiled parted member holds
  have ranked : ∀ constants x tolerance, 0 ≤ tolerance → ∃ rank, Rank.numeric? methods
      ((Equations.mk island.blocks island.unknowns constants).jacobian x) tolerance = some rank ∧
        rank + 2 ≤ island.unknowns.length := fun constants x tolerance =>
    (floats constants).exists_numeric? exact hasX hasY x
  refine ⟨ranked, fun options drag session' result done => ?_⟩
  obtain ⟨plan, blocks', -, made, components, told⟩ := exists_told_of_solve done
  cases Except.ok.inj (compiled.symm.trans made.compiled)
  cases Except.ok.inj (parted.symm.trans made.islands)
  obtain ⟨report, placed, reported⟩ := told.report_at components member
  refine ⟨report, placed, reported.unknowns, ?_⟩
  cases reported with
  | skipped _ =>
    obtain ⟨rank, -, room⟩ := ranked (fun _ => 0) [] 0 le_rfl
    exact ⟨rfl, Report.loose_skipped (by omega) _⟩
  | @solved s _ _ _ solved _ diagnosed =>
    obtain ⟨rfl, evaluates⟩ := Plan.evaluates_of_solved solved
    obtain ⟨x, steps, -, outcome⟩ := evaluates.outcome
    have positive := Options.rankTolerance_pos (Session.isUsable_of_solve done)
    obtain ⟨rank, found, room⟩ :=
      ranked plan.pool.valuation x (numerals.value options.rankTolerance) (nonneg _ positive)
    have free : s.system.free = s.island.unknowns := by rw [evaluates.system]
    refine ⟨rfl, loose_of_diagnose free ?_ room diagnosed _⟩
    rw [outcome, evaluates.system]
    exact found

end Solving

/-! ### Two parallel lines that have collapsed -/

/-- Two lines from one corner that have to be parallel, all three points in one place. -/
noncomputable def collapsed : Sketch ℝ where
  features := ⟨[
    ⟨some (.point 0 0 false), 0⟩, ⟨some (.point 0 0 false), 0⟩, ⟨some (.point 0 0 false), 0⟩,
    ⟨some (.line ⟨0, 0⟩ ⟨1, 0⟩ false), 0⟩, ⟨some (.line ⟨0, 0⟩ ⟨2, 0⟩ false), 0⟩]⟩
  constraints := ⟨[⟨some (.plain .parallel [⟨3, 0⟩, ⟨4, 0⟩] none none), 0⟩]⟩
  groups := []

namespace Collapsed

/-- The only island. -/
noncomputable def island : Island ℝ where
  index := 0
  unknowns := coordinates [⟨0, 0⟩, ⟨1, 0⟩, ⟨2, 0⟩]
  pinned := []
  blocks := [⟨.constraint ⟨0, 0⟩ .parallel, .parallel ⟨0, 0⟩ ⟨1, 0⟩ ⟨0, 0⟩ ⟨2, 0⟩⟩]

noncomputable def pool : Pool ℝ := Pool.ofSketch collapsed

/-- Settings are real numbers themselves. -/
def numerals : Numerals ℝ ℝ := ⟨id, fun _ => ""⟩

theorem nonneg (v : ℝ) (positive : Ordered.lt 0 v = true) : 0 ≤ numerals.value v :=
  (Ordered.lt_real.mp positive).le

theorem compiled : Plan.compiled collapsed (Session.fresh.seeded collapsed) collapsed.flaws =
    .ok (pool, island.blocks) := by
  cbv

theorem parted : Plan.islandsOf collapsed pool island.blocks collapsed.flaws = .ok [island] := by
  cbv

theorem unanchored : island.Unanchored pool :=
  fun _ _ v _ => Pool.binding?_ofSketch collapsed v

noncomputable def plan : Plan ℝ := ⟨[], pool, [island], [], [], false, [], []⟩

theorem made : Plan.make collapsed (Session.fresh.seeded collapsed) none = .ok plan := by
  cbv

noncomputable def system : Equations ℝ := ⟨island.blocks, island.unknowns, pool.valuation⟩

/-- The island is left where it is. -/
noncomputable def stay : Plan.Solved ℝ :=
  ⟨island, system, system.outcomeAt Options.real [0, 0, 0, 0, 0, 0] 0⟩

theorem at_rest : ∀ r ∈ system.residuals [0, 0, 0, 0, 0, 0], r = 0 := by
  have residuals : system.residuals [0, 0, 0, 0, 0, 0] =
      [(0 - 0) * (0 - 0) - (0 - 0) * (0 - 0)] := by
    cbv
  simp [residuals]

theorem solved : plan.solved Methods.spectral Options.real island = .ok stay := by
  obtain ⟨values, registered⟩ : ∃ values, islandValues pool island = .ok values := ⟨_, by cbv⟩
  exact solved_at_rest Methods.spectral rfl rfl registered (by cbv) at_rest
    Options.tolerance_real_pos

theorem exists_solve : ∃ session' result,
    Session.fresh.solve numerals Methods.spectral Options.real collapsed none =
      (session', .ok result) := by
  have all : plan.solvedAll Methods.spectral Options.real = .ok [stay] :=
    mapM_eq_ok_iff.mpr (.cons solved .nil)
  obtain ⟨diagnosis, diagnosed⟩ : ∃ diagnosis,
      diagnose Methods.spectral Options.real pool stay.system stay.outcome = .ok diagnosis :=
    exists_diagnosis Methods.strict_spectral _ _ (Matrix.isFinite_real _)
  have gathering : Session.gather Methods.spectral Options.real plan .fresh [stay] plan.islands
      ⟨plan.pool, .fresh, [], []⟩ = (Session.Gathered.take .fresh ⟨pool, .fresh, [], []⟩ stay
        diagnosis, none) :=
    Session.gather_cons_of_sound rfl rfl diagnosed
  rw [Session.solve_of_isUsable Options.isUsable_real made]
  exact ⟨_, _, Session.carryOut_of_gather all gathering rfl⟩

end Collapsed

theorem loose_of_unanchored_collapsed :
    Plan.islandsOf collapsed Collapsed.pool Collapsed.island.blocks collapsed.flaws =
      .ok [Collapsed.island] ∧
    ∃ session' result,
      Session.fresh.solve Collapsed.numerals Methods.spectral Options.real collapsed none =
        (session', .ok result) ∧
      ∃ report, result.islands[0]? = some report ∧ report.freeVariables = 6 ∧ report.Loose := by
  obtain ⟨session', result, done⟩ := Collapsed.exists_solve
  refine ⟨Collapsed.parted, session', result, done, ?_⟩
  obtain ⟨-, reported⟩ := (loose_of_unanchored Collapsed.nonneg Methods.exactValues_spectral
    Collapsed.compiled Collapsed.parted List.mem_cons_self Collapsed.unanchored).2 ⟨0, 0⟩
      (.inl List.mem_cons_self)
  obtain ⟨report, placed, -, six, loose⟩ := reported _ _ _ _ done
  exact ⟨report, placed, six, loose⟩

end PlaneSketch
