import PlaneSketch.Plan
import PlaneSketch.Proofs.Compile

/-!
The blocks of a drawing and the points that it binds.

* `Compiled` is what compiling one constraint can do: bind a point that is not bound, or give one
  block. Everything about a whole drawing goes by induction on this step.
* `entry?_compileConstraints`: each point is bound by the first constraint that fixes it, and
  nothing else changes in the pool.
* `block_of_mem`: every constraint gives its block, unless it is the one that binds its point.
* `stands_of_compiled`: in a drawing of which everything flawed is left out, each block is that of
  an arc or of a fit constraint.
-/

namespace PlaneSketch

/-- The constraint fixes the point. -/
def Constraint.Fixes {α : Type} (constraint : Constraint α) (p : Handle) : Prop :=
  constraint.kind = .fixed ∧ constraint.references[0]? = some p

instance {α : Type} (constraint : Constraint α) (p : Handle) : Decidable (constraint.Fixes p) := by
  unfold Constraint.Fixes
  infer_instance

namespace Pool

variable {α : Type}

theorem binding?_of_found {pool : Pool α} {v : Variable} {entry : Entry α}
    (found : pool.entry? v = some entry) : pool.binding? v = entry.binding := by
  simp [binding?, found]

/-- A point that is bound now was bound before, or is the one just bound. -/
theorem isPinned_pin {pool : Pool α} {p : Handle} (registered : ⟨p, .x⟩ ∈ pool.keys)
    (position : Vec2 α) (constraint q : Handle) :
    (pool.pin p position constraint).isPinned q = (pool.isPinned q || decide (q = p)) := by
  rw [isPinned, isPinned, binding?, binding?, entry?_pin, entry?_pin, binding?, binding?]
  by_cases same : q = p
  · subst same
    obtain ⟨entry, found⟩ := mem_keys_iff.mp registered
    simp [found, pinnedEntry, key_of_found found]
  · simp [same]

theorem SameShape.isPinned {pool other : Pool α} (same : SameShape pool other) (p : Handle) :
    other.isPinned p = pool.isPinned p := by
  rw [Pool.isPinned, Pool.isPinned, same.binding?, same.binding?]

theorem SameShape.pin {pool other : Pool α} (same : SameShape pool other) (p : Handle)
    (position : Vec2 α) (constraint : Handle) :
    SameShape (pool.pin p position constraint) (other.pin p position constraint) where
  keys := by rw [keys_pin, keys_pin, same.keys]
  binding? v := by
    have registered : v ∈ other.keys ↔ v ∈ pool.keys := by rw [same.keys]
    have bindings := same.binding? v
    rw [Pool.binding?, Pool.binding?, entry?_pin, entry?_pin]
    cases found : pool.entry? v with
    | none =>
      cases found' : other.entry? v with
      | none => rfl
      | some entry =>
        have known := registered.mp (mem_keys_iff.mpr ⟨entry, found'⟩)
        obtain ⟨entry', present⟩ := mem_keys_iff.mp known
        rw [found] at present
        cases present
    | some entry =>
      obtain ⟨entry', found'⟩ := mem_keys_iff.mp (registered.mpr (mem_keys_iff.mpr ⟨entry, found⟩))
      rw [binding?_of_found found, binding?_of_found found'] at bindings
      obtain rfl := key_of_found found
      have key := key_of_found found'
      simp only [found', Option.map_some, Option.bind_some]
      split
      · simp only [pinnedEntry, key]
        split <;> first | rfl | exact bindings
      · exact bindings

end Pool

namespace Sketch

variable {α : Type} [Scalar α]

/-! ### One constraint -/

/-- What compiling one constraint does to a pool, and the blocks that it gives. -/
inductive Compiled (sketch : Sketch α) (pool : Pool α) (h : Handle) (constraint : Constraint α) :
    Pool α → List (Block α) → Prop
  | bound {p : Handle} : constraint.Fixes p → pool.isPinned p = false → ⟨p, .x⟩ ∈ pool.keys →
      ⟨p, .y⟩ ∈ pool.keys → Compiled sketch pool h constraint (pool.pin p constraint.position h) []
  | block {relation : Relation α} : (∀ p, constraint.Fixes p → pool.isPinned p = true) →
      sketch.relationOf h constraint = .ok relation →
      Compiled sketch pool h constraint pool [⟨.constraint h constraint.kind, relation⟩]

section Step

variable {sketch : Sketch α} {pool pool' : Pool α} {h : Handle} {constraint : Constraint α}
  {blocks : List (Block α)}

/-- The block of a constraint that binds nothing. -/
def ownBlock (sketch : Sketch α) (pool : Pool α) (h : Handle) (constraint : Constraint α) :
    Except Failure (Pool α × List (Block α)) := do
  let relation ← sketch.relationOf h constraint
  return (pool, [⟨.constraint h constraint.kind, relation⟩])

theorem ownBlock_eq_ok_iff :
    sketch.ownBlock pool h constraint = .ok (pool', blocks) ↔
      ∃ relation, sketch.relationOf h constraint = .ok relation ∧ pool' = pool ∧
        blocks = [⟨.constraint h constraint.kind, relation⟩] := by
  rw [ownBlock, bind_eq_ok_iff]
  simp [pure, Except.pure, eq_comm]

theorem compileConstraint_of_fixes {p : Handle} (fixes : constraint.Fixes p) :
    sketch.compileConstraint pool h constraint =
      match pool.bind p constraint.position h with
      | (_, .error failure) => .error failure
      | (bound, .ok true) => .ok (bound, [])
      | (_, .ok false) => sketch.ownBlock pool h constraint := by
  rw [compileConstraint, if_pos fixes.1, referenceAt, fixes.2]
  simp only [bind, Except.bind, pure, Except.pure]
  rcases pool.bind p constraint.position h with ⟨bound, failure | bool⟩
  · rfl
  · cases bool <;> rfl

theorem compileConstraint_of_not_fixes (sketch : Sketch α) (pool : Pool α) (h : Handle)
    (loose : ∀ p, ¬constraint.Fixes p) :
    (∃ failure, sketch.compileConstraint pool h constraint = .error failure ∧
      sketch.relationOf h constraint = .error failure) ∨
    sketch.compileConstraint pool h constraint = sketch.ownBlock pool h constraint := by
  by_cases fixed : constraint.kind = .fixed
  · have missing : constraint.references[0]? = none :=
      Option.eq_none_iff_forall_not_mem.mpr fun p found => loose p ⟨fixed, found⟩
    refine .inl ⟨.missingReference, ?_, ?_⟩
    · rw [compileConstraint, if_pos fixed, referenceAt, missing]
      rfl
    · simp only [relationOf, fixed, referenceAt, missing]
      rfl
  · refine .inr ?_
    rw [compileConstraint, if_neg fixed]
    rfl

theorem compileConstraint_eq_ok_iff :
    sketch.compileConstraint pool h constraint = .ok (pool', blocks) ↔
      sketch.Compiled pool h constraint pool' blocks := by
  by_cases fixing : ∃ p, constraint.Fixes p
  · obtain ⟨p, fixes⟩ := fixing
    have only : ∀ {q}, constraint.Fixes q → q = p := by
      intro q fixes'
      have same := fixes.2.symm.trans fixes'.2
      exact (Option.some.inj same).symm
    rw [compileConstraint_of_fixes fixes]
    rcases pool.bind_cases p constraint.position h with
      ⟨pinned, outcome⟩ | ⟨unpinned, hasX, hasY, outcome⟩ | ⟨unpinned, missing, failure, failed⟩
    · rw [outcome]
      dsimp only
      rw [ownBlock_eq_ok_iff]
      constructor
      · rintro ⟨relation, found, rfl, rfl⟩
        exact .block (fun q fixes' => by rwa [only fixes']) found
      · rintro (⟨fixes', unpinned, -, -⟩ | ⟨-, found⟩)
        · rw [only fixes', pinned] at unpinned
          cases unpinned
        · exact ⟨_, found, rfl, rfl⟩
    · rw [outcome]
      dsimp only
      constructor
      · intro done
        cases done
        exact .bound fixes unpinned hasX hasY
      · rintro (⟨fixes', -, -, -⟩ | ⟨pinned, -⟩)
        · rw [only fixes']
        · rw [pinned p fixes] at unpinned
          cases unpinned
    · rcases bound : pool.bind p constraint.position h with ⟨pool'', outcome⟩
      rw [bound] at failed
      dsimp only at failed ⊢
      rw [failed]
      refine iff_of_false (by simp) ?_
      rintro (⟨fixes', -, hasX, hasY⟩ | ⟨pinned, -⟩)
      · rw [only fixes'] at hasX hasY
        exact missing.elim (· hasX) (· hasY)
      · rw [pinned p fixes] at unpinned
        cases unpinned
  · have loose : ∀ p, ¬constraint.Fixes p := fun p fixes => fixing ⟨p, fixes⟩
    have block : sketch.Compiled pool h constraint pool' blocks ↔
        sketch.ownBlock pool h constraint = .ok (pool', blocks) := by
      rw [ownBlock_eq_ok_iff]
      constructor
      · rintro (⟨fixes, -, -, -⟩ | ⟨-, found⟩)
        · exact absurd fixes (loose _)
        · exact ⟨_, found, rfl, rfl⟩
      · rintro ⟨relation, found, rfl, rfl⟩
        exact .block (fun p fixes => absurd fixes (loose p)) found
    rcases compileConstraint_of_not_fixes sketch pool h loose with
      ⟨failure, failed, unrelated⟩ | same
    · rw [block, failed, ownBlock_eq_ok_iff, unrelated]
      simp
    · rw [block, same]

end Step

/-! ### Constraints one after the other -/

section Run

variable {sketch : Sketch α} {pool pool' : Pool α} {items : List (Handle × Constraint α)}
  {blocks : List (Block α)}

/-- The first constraint that fixes a point. -/
def firstFix? (items : List (Handle × Constraint α)) (p : Handle) :
    Option (Handle × Constraint α) :=
  items.find? fun item => item.2.Fixes p

theorem compileConstraints_cons_eq_ok_iff {h : Handle} {constraint : Constraint α} :
    sketch.compileConstraints pool ((h, constraint) :: items) = .ok (pool', blocks) ↔
      ∃ between own others, sketch.Compiled pool h constraint between own ∧
        sketch.compileConstraints between items = .ok (pool', others) ∧ blocks = own ++ others := by
  simp only [compileConstraints, bind_eq_ok_iff, compileConstraint_eq_ok_iff, Prod.exists]
  simp [pure, Except.pure, eq_comm]

theorem keys_compileConstraints
    (done : sketch.compileConstraints pool items = .ok (pool', blocks)) :
    pool'.keys = pool.keys := by
  induction items generalizing pool blocks with
  | nil =>
    cases done
    rfl
  | cons item items ih =>
    obtain ⟨between, own, others, first, rest, -⟩ := compileConstraints_cons_eq_ok_iff.mp done
    rw [ih rest]
    cases first with
    | bound => exact Pool.keys_pin _ _ _ _
    | block => rfl

/-- **The first constraint that fixes a point binds it**, if it was not bound before; all other
variables stay as they were. -/
theorem entry?_compileConstraints
    (done : sketch.compileConstraints pool items = .ok (pool', blocks)) (v : Variable) :
    pool'.entry? v = (pool.entry? v).map fun entry =>
      if pool.isPinned v.handle then entry
      else match firstFix? items v.handle with
        | none => entry
        | some (h, constraint) => Pool.pinnedEntry entry constraint.position h := by
  induction items generalizing pool blocks with
  | nil =>
    cases done
    simp [firstFix?]
  | cons item items ih =>
    obtain ⟨h, constraint⟩ := item
    obtain ⟨between, own, others, first, rest, -⟩ := compileConstraints_cons_eq_ok_iff.mp done
    rw [ih rest]
    cases first with
    | @bound p fixes unpinned hasX hasY =>
      rw [Pool.entry?_pin, Pool.isPinned_pin hasX, Option.map_map]
      congr 1
      funext entry
      by_cases same : v.handle = p
      · subst same
        simp [unpinned, firstFix?, fixes]
      · have other : ¬constraint.Fixes v.handle := fun fixes' =>
          same (Option.some.inj (fixes'.2.symm.trans fixes.2))
        simp [same, firstFix?, other]
    | block pinned found =>
      congr 1
      funext entry
      by_cases fixes : constraint.Fixes v.handle
      · simp [pinned _ fixes]
      · simp [firstFix?, fixes]

/-- Every block is that of one of the constraints. -/
theorem constraint_of_mem (done : sketch.compileConstraints pool items = .ok (pool', blocks))
    {block : Block α} (member : block ∈ blocks) :
    ∃ h constraint, (h, constraint) ∈ items ∧ block.owner = .constraint h constraint.kind ∧
      sketch.relationOf h constraint = .ok block.relation := by
  induction items generalizing pool blocks with
  | nil =>
    cases done
    cases member
  | cons item items ih =>
    obtain ⟨h, constraint⟩ := item
    obtain ⟨between, own, others, first, rest, rfl⟩ := compileConstraints_cons_eq_ok_iff.mp done
    rcases List.mem_append.mp member with mine | later
    · cases first with
      | bound => cases mine
      | block _ found =>
        obtain rfl := List.mem_singleton.mp mine
        exact ⟨h, constraint, List.mem_cons_self, rfl, found⟩
    · obtain ⟨h', constraint', listed, owner, found⟩ := ih rest later
      exact ⟨h', constraint', List.mem_cons_of_mem _ listed, owner, found⟩

/-- **No constraint is lost**: it gives a block, or it is the first one to fix a point that was not
bound. -/
theorem block_of_mem (done : sketch.compileConstraints pool items = .ok (pool', blocks))
    {h : Handle} {constraint : Constraint α} (member : (h, constraint) ∈ items) :
    (∃ block ∈ blocks, block.owner = .constraint h constraint.kind ∧
      sketch.relationOf h constraint = .ok block.relation) ∨
    ∃ p, constraint.Fixes p ∧ pool.isPinned p = false ∧
      firstFix? items p = some (h, constraint) := by
  induction items generalizing pool blocks with
  | nil => cases member
  | cons item items ih =>
    obtain ⟨between, own, others, first, rest, rfl⟩ := compileConstraints_cons_eq_ok_iff.mp done
    rcases List.mem_cons.mp member with rfl | later
    · cases first with
      | bound fixes unpinned => exact .inr ⟨_, fixes, unpinned, by simp [firstFix?, fixes]⟩
      | block _ found => exact .inl ⟨_, List.mem_cons_self, rfl, found⟩
    · rcases ih rest later with ⟨block, listed, own⟩ | ⟨p, fixes, unpinned, least⟩
      · exact .inl ⟨block, List.mem_append_right _ listed, own⟩
      · refine .inr ⟨p, fixes, ?_⟩
        cases first with
        | bound fixes' unpinned' hasX =>
          rw [Pool.isPinned_pin hasX] at unpinned
          simp only [Bool.or_eq_false_iff, decide_eq_false_iff_not] at unpinned
          have other : ¬item.2.Fixes p := fun fixes'' =>
            unpinned.2 (Option.some.inj (fixes''.2.symm.trans fixes'.2))
          exact ⟨unpinned.1, by simpa [firstFix?, other] using least⟩
        | block pinned =>
          have other : ¬item.2.Fixes p := fun fixes'' => by
            rw [pinned p fixes''] at unpinned
            cases unpinned
          exact ⟨unpinned, by simpa [firstFix?, other] using least⟩

/-- The values in the pool have no part in what a drawing compiles to. -/
theorem compileConstraints_of_sameShape {other : Pool α} (same : Pool.SameShape pool other)
    (done : sketch.compileConstraints pool items = .ok (pool', blocks)) :
    ∃ other', sketch.compileConstraints other items = .ok (other', blocks) ∧
      Pool.SameShape pool' other' := by
  induction items generalizing pool other blocks with
  | nil =>
    cases done
    exact ⟨other, rfl, same⟩
  | cons item items ih =>
    obtain ⟨h, constraint⟩ := item
    obtain ⟨between, own, others, first, rest, rfl⟩ := compileConstraints_cons_eq_ok_iff.mp done
    have step : ∃ between', sketch.Compiled other h constraint between' own ∧
        Pool.SameShape between between' := by
      cases first with
      | bound fixes unpinned hasX hasY =>
        refine ⟨_, .bound fixes ?_ ?_ ?_, same.pin _ _ _⟩
        · rw [same.isPinned, unpinned]
        · rwa [same.keys]
        · rwa [same.keys]
      | block pinned found =>
        refine ⟨other, .block (fun p fixes => ?_) found, same⟩
        rw [same.isPinned, pinned p fixes]
    obtain ⟨between', first', same'⟩ := step
    obtain ⟨other', rest', same''⟩ := ih same' rest
    have done' := compileConstraints_cons_eq_ok_iff.mpr ⟨between', own, others, first', rest', rfl⟩
    exact ⟨other', done', same''⟩

end Run

/-! ### A whole drawing -/

section Whole

variable {sketch : Sketch α} {pool pool' : Pool α} {skipFeatures skipConstraints : List Handle}
  {blocks : List (Block α)}

/-- The constraints of a drawing that are compiled. -/
def kept (sketch : Sketch α) (skip : List Handle) : List (Handle × Constraint α) :=
  sketch.constraints.items.filter fun item => !skip.contains item.1

omit [Scalar α] in
theorem mem_kept_iff {skip : List Handle} {h : Handle} {constraint : Constraint α} :
    (h, constraint) ∈ sketch.kept skip ↔
      sketch.constraints.get? h = some constraint ∧ h ∉ skip := by
  simp [kept, Arena.mem_items_iff]

theorem compile_eq_ok_iff :
    sketch.compile pool skipFeatures skipConstraints = .ok (pool', blocks) ↔
      ∃ arcs others, sketch.arcBlocks skipFeatures = .ok arcs ∧
        sketch.compileConstraints pool (sketch.kept skipConstraints) = .ok (pool', others) ∧
        blocks = arcs ++ others := by
  simp only [compile, bind_eq_ok_iff, Prod.exists]
  simp [pure, Except.pure, eq_comm, kept]

omit [Scalar α] in
theorem arcRelation_eq_ok_iff {references : List Handle} {relation : Relation α} :
    arcRelation references = .ok relation ↔
      ∃ start center finish, references = [start, center, finish] ∧
        relation = .arc start center finish := by
  unfold arcRelation
  split
  · simp [eq_comm]
  · rename_i short
    refine iff_of_false (by simp) ?_
    rintro ⟨start, center, finish, rfl, -⟩
    exact short _ _ _ rfl

omit [Scalar α] in
/-- Every block of an arc is that of a live arc. -/
theorem arc_of_mem {skip : List Handle} (done : sketch.arcBlocks skip = .ok blocks)
    {block : Block α} (member : block ∈ blocks) :
    ∃ h feature start center finish, sketch.feature? h = some feature ∧ feature.kind = .arc ∧
      h ∉ skip ∧ feature.references = [start, center, finish] ∧
      block = ⟨.arc h, .arc start center finish⟩ := by
  obtain ⟨⟨h, feature⟩, listed, compiled⟩ := mem_of_mapM_eq_ok done member
  simp only [List.mem_filter, Arena.mem_items_iff, Bool.and_eq_true, decide_eq_true_eq] at listed
  obtain ⟨found, kind, kept⟩ := listed
  obtain ⟨relation, arc, same⟩ := bind_eq_ok_iff.mp compiled
  obtain ⟨start, center, finish, references, rfl⟩ := arcRelation_eq_ok_iff.mp arc
  cases same
  exact ⟨h, feature, start, center, finish, found, kind, by simpa using kept, references, rfl⟩

omit [Scalar α] in
/-- No arc is lost. -/
theorem block_of_arc {skip : List Handle} (done : sketch.arcBlocks skip = .ok blocks)
    {h : Handle} {feature : Feature α} (found : sketch.feature? h = some feature)
    (kind : feature.kind = .arc) (kept : h ∉ skip) : ∃ block ∈ blocks, block.owner = .arc h := by
  have listed : (h, feature) ∈ sketch.features.items.filter fun item =>
      item.2.kind = .arc && !skip.contains item.1 := by
    simpa [Arena.mem_items_iff, kind, kept, feature?] using found
  obtain ⟨block, member, compiled⟩ := outcome_of_mapM_eq_ok done listed
  obtain ⟨relation, -, same⟩ := bind_eq_ok_iff.mp compiled
  cases same
  exact ⟨_, member, rfl⟩

theorem keys_compile
    (done : sketch.compile pool skipFeatures skipConstraints = .ok (pool', blocks)) :
    pool'.keys = pool.keys := by
  obtain ⟨arcs, others, -, constraints, -⟩ := compile_eq_ok_iff.mp done
  exact keys_compileConstraints constraints

/-- A drawing compiles to the same blocks whatever the values in the pool. -/
theorem compile_of_sameShape {other : Pool α} (same : Pool.SameShape pool other)
    (done : sketch.compile pool skipFeatures skipConstraints = .ok (pool', blocks)) :
    ∃ other', sketch.compile other skipFeatures skipConstraints = .ok (other', blocks) ∧
      Pool.SameShape pool' other' := by
  obtain ⟨arcs, others, features, constraints, rfl⟩ := compile_eq_ok_iff.mp done
  obtain ⟨other', constraints', same'⟩ := compileConstraints_of_sameShape same constraints
  exact ⟨other', compile_eq_ok_iff.mpr ⟨arcs, others, features, constraints', rfl⟩, same'⟩

/-- Only coordinates are ever bound. -/
theorem binding?_radius (unbound : ∀ v, pool.binding? v = none)
    (done : sketch.compile pool skipFeatures skipConstraints = .ok (pool', blocks)) (h : Handle) :
    pool'.binding? ⟨h, .r⟩ = none := by
  obtain ⟨arcs, others, -, constraints, -⟩ := compile_eq_ok_iff.mp done
  have free := unbound ⟨h, .r⟩
  rw [Pool.binding?] at free ⊢
  rw [entry?_compileConstraints constraints]
  cases found : pool.entry? ⟨h, .r⟩ with
  | none => rfl
  | some entry =>
    rw [found] at free
    have key := Pool.key_of_found found
    simp only [Option.map_some, Option.bind_some] at free ⊢
    split
    · exact free
    · split
      · exact free
      · simpa [Pool.pinnedEntry, key] using free

end Whole

/-! ### Blocks of what is sound -/

section Sound

variable {sketch : Sketch α} {pool pool' : Pool α} {blocks : List (Block α)} {block : Block α}

/-- What a block stands for: the shape of an arc, or a constraint that is fit. -/
inductive Stands (sketch : Sketch α) : Block α → Prop
  | arc {h start center finish : Handle} : sketch.Built h .arc [start, center, finish] →
      Stands sketch ⟨.arc h, .arc start center finish⟩
  | constraint {h : Handle} {constraint : Constraint α} {kinds : List FeatureKind}
      {relation : Relation α} : sketch.constraints.get? h = some constraint →
      sketch.Fit constraint kinds → sketch.Demands constraint relation →
      Stands sketch ⟨.constraint h constraint.kind, relation⟩

/-- **Every block of a drawing stands for an arc or for a fit constraint**, once everything flawed
is left out. -/
theorem stands_of_compiled (done : Plan.compiled sketch pool sketch.flaws = .ok (pool', blocks))
    (member : block ∈ blocks) : sketch.Stands block := by
  obtain ⟨arcs, others, features, constraints, rfl⟩ := compile_eq_ok_iff.mp done
  rcases List.mem_append.mp member with ofArc | ofConstraint
  · obtain ⟨h, feature, start, center, finish, found, kind, sound, references, rfl⟩ :=
      arc_of_mem features ofArc
    have built := built_of_unbroken found sound
    rw [kind, references] at built
    exact .arc built
  · obtain ⟨h, constraint, listed, owner, compiled⟩ := constraint_of_mem constraints ofConstraint
    obtain ⟨found, sound⟩ := mem_kept_iff.mp listed
    obtain ⟨kinds, fit⟩ := fit_of_not_flawed found sound
    obtain ⟨_, relation⟩ := block
    cases owner
    exact .constraint found fit (fit.demands compiled)

namespace Stands

/-- The variables of a block are numbers of live features. -/
theorem registered (stands : sketch.Stands block) {v : Variable} (member : v ∈ block.unknowns) :
    sketch.Registered v := by
  have slot := mem_firstOccurrences.mp member
  cases stands with
  | arc built => exact registered_coordinates built.points slot
  | constraint _ _ demands => exact demands.registered slot

/-- No block is about one lone coordinate. -/
theorem entangled (stands : sketch.Stands block) : Entangled block.unknowns := by
  refine Entangled.mono ?_ fun v slot => mem_firstOccurrences.mpr slot
  cases stands with
  | arc => exact entangled_coordinates _ _
  | constraint _ _ demands => exact demands.entangled

end Stands

/-- Nothing is left out of a drawing without flaws. -/
theorem compiled_of_flawless (flawless : sketch.flaws = []) (pool : Pool α) :
    Plan.compiled sketch pool sketch.flaws = sketch.compile pool [] [] := by
  rw [Plan.compiled, Plan.flawedConstraints, flawless, List.filterMap_nil,
    brokenFeatures_eq_nil_of_flaws_eq_nil flawless]

end Sound

end Sketch

end PlaneSketch
