import Mathlib
import PlaneSketch.Proofs.Outline
import PlaneSketch.Proofs.Reports

/-!
Where the values of a solve come from.

A variable starts where a session remembers it, or else where it is drawn; a fixed point starts
where it is fixed. Nothing else about a plan hangs on values.

* `Session.seed?_eq`: the pool of a solve shows what is remembered, or else drawn.
* `Plan.Made.agrees`: plans of drawings with the same outline differ in the values of free
  variables only.
* `Equations.Same`: equations with the same blocks read the same, whatever the constants that no
  block reads.
-/

namespace PlaneSketch

/-- No variable is remembered twice. -/
def Session.Distinct {α : Type} (session : Session α) : Prop := (session.cache.map (·.1)).Nodup

/-- The number drawn for a variable. -/
def Sketch.drawn? {α : Type} (sketch : Sketch α) (v : Variable) : Option α :=
  (sketch.feature? v.handle).map (·.value v.component)

/-- Where a variable starts: where it is remembered, or else where it is drawn. -/
def Session.seed? {α : Type} (session : Session α) (sketch : Sketch α) (v : Variable) : Option α :=
  (Assoc.find? v session.cache).or (sketch.drawn? v)

/-! ### Values in a pool -/

namespace Pool

section Bindings

variable {α : Type} {sketch : Sketch α} {pool : Pool α}

theorem isFree_of_mem_keys (unbound : ∀ v, pool.binding? v = none) {v : Variable}
    (registered : v ∈ pool.keys) : pool.isFree v = true :=
  isFree_iff.mpr ⟨registered, unbound v⟩

/-- What is registered for a drawing has the value that is drawn. -/
theorem drawn_of_mem {entry : Entry α} (listed : entry ∈ (ofSketch sketch).entries) :
    sketch.drawn? entry.key = some entry.value := by
  have fold : ∀ (pairs : List (Variable × α)) (pool : Pool α),
      (∀ pair ∈ pairs, sketch.drawn? pair.1 = some pair.2) →
      (∀ entry ∈ pool.entries, sketch.drawn? entry.key = some entry.value) →
      ∀ entry ∈ (pairs.foldl (fun pool pair => pool.add pair.1 pair.2) pool).entries,
        sketch.drawn? entry.key = some entry.value := by
    intro pairs
    induction pairs with
    | nil => exact fun pool _ before => before
    | cons pair pairs ih =>
      intro pool drawn before
      refine ih _ (fun pair later => drawn pair (List.mem_cons_of_mem _ later)) ?_
      show ∀ entry ∈ (pool.add pair.1 pair.2).entries, _
      unfold add
      split
      · exact before
      · intro entry listed
        rcases List.mem_append.mp listed with old | new
        · exact before entry old
        · obtain rfl := List.mem_singleton.mp new
          exact drawn pair List.mem_cons_self
  rw [ofSketch_eq] at listed
  refine fold _ empty ?_ (fun entry absent => by cases absent) entry listed
  intro pair member
  obtain ⟨⟨h, feature⟩, item, unknown⟩ := List.mem_flatMap.mp member
  obtain ⟨component, -, rfl⟩ := List.mem_map.mp unknown
  have found : sketch.feature? h = some feature := Arena.mem_items_iff.mp item
  rw [Sketch.drawn?, found]
  rfl

end Bindings

variable {α : Type} [Scalar α] {sketch : Sketch α} {pool : Pool α} {v : Variable}

theorem valuation_of_not_mem_keys (missing : v ∉ pool.keys) : pool.valuation v = 0 := by
  rw [mem_keys_iff, not_exists] at missing
  have none : pool.entry? v = none := Option.eq_none_iff_forall_not_mem.mpr missing
  rw [valuation, value, none]

theorem valuation_ofSketch (registered : v ∈ (ofSketch sketch).keys) :
    sketch.drawn? v = some ((ofSketch sketch).valuation v) := by
  obtain ⟨entry, found⟩ := mem_keys_iff.mp registered
  obtain ⟨listed, rfl⟩ := entry?_eq_some_iff.mp found
  rw [drawn_of_mem listed, valuation_of_found found]

/-- **Seeding gives a free variable its new value**, if there is one. -/
theorem valuation_seed {values : List (Variable × α)} (distinct : (values.map (·.1)).Nodup)
    (free : pool.isFree v = true) :
    (pool.seed values).1.valuation v = (Assoc.find? v values).getD (pool.valuation v) := by
  suffices fold : ∀ count, (values.foldl (fun state pair =>
      if state.1.isFree pair.1 then (state.1.write pair.1 pair.2, state.2 + 1)
      else (state.1, state.2)) (pool, count)).1.valuation v =
        (Assoc.find? v values).getD (pool.valuation v) from fold 0
  induction values generalizing pool with
  | nil => exact fun _ => rfl
  | cons pair values ih =>
    intro count
    rw [List.map_cons, List.nodup_cons] at distinct
    rw [List.foldl_cons]
    by_cases same : pair.1 = v
    · -- no later pair changes the variable again
      subst same
      have later : Assoc.find? pair.1 values = none := Assoc.find?_eq_none_iff.mpr distinct.1
      dsimp only
      rw [if_pos free, ih distinct.2 (by rwa [(sameShape_write _ _ _).isFree]), later,
        valuation_write (mem_keys_of_isFree free), if_pos rfl]
      simp [Assoc.find?]
    · have passed : Assoc.find? v (pair :: values) = Assoc.find? v values := by
        simp [Assoc.find?, same]
      rw [passed]
      dsimp only
      split
      · rename_i freeFirst
        rw [ih distinct.2 (by rw [(sameShape_write _ _ _).isFree]; exact free),
          valuation_write (mem_keys_of_isFree freeFirst), if_neg (Ne.symm same)]
      · exact ih distinct.2 free _

end Pool

namespace Session

variable {α : Type} [Scalar α] {session : Session α} {sketch : Sketch α} {v : Variable}

omit [Scalar α] in
theorem distinct_prune (distinct : session.Distinct) (pool : Pool α) :
    (session.prune pool).Distinct :=
  distinct.sublist (List.filter_sublist.map _)

omit [Scalar α] in
theorem find?_prune (session : Session α) (pool : Pool α) (v : Variable) :
    Assoc.find? v (session.prune pool).cache =
      if pool.contains v then Assoc.find? v session.cache else none :=
  Assoc.find?_filter pool.contains v session.cache

omit [Scalar α] in
/-- A solve starts with nothing bound. -/
theorem binding?_seeded (session : Session α) (sketch : Sketch α) (v : Variable) :
    (session.seeded sketch).binding? v = none :=
  Pool.unbound_of_sameShape (session.sameShape_seeded sketch) v

/-- **The pool of a solve shows where each variable starts.** -/
theorem seed?_eq (distinct : session.Distinct)
    (registered : v ∈ (Pool.ofSketch sketch).keys) :
    session.seed? sketch v = some ((session.seeded sketch).valuation v) := by
  have free := Pool.isFree_of_mem_keys (Pool.binding?_ofSketch sketch) registered
  rw [seeded, Pool.valuation_seed (distinct_prune distinct _) free, find?_prune,
    if_pos (Pool.contains_iff.mpr registered), seed?, Pool.valuation_ofSketch registered]
  cases Assoc.find? v session.cache <;> rfl

end Session

/-! ### Values after compiling -/

section Compiling

variable {α : Type} [Scalar α] {sketch : Sketch α} {pool pool' other other' : Pool α}
  {skipFeatures skipConstraints : List Handle} {blocks blocks' : List (Block α)} {v : Variable}

theorem entry?_of_compile (unbound : ∀ v, pool.binding? v = none)
    (done : sketch.compile pool skipFeatures skipConstraints = .ok (pool', blocks))
    (v : Variable) :
    pool'.entry? v = (pool.entry? v).map fun entry =>
      match Sketch.firstFix? (sketch.kept skipConstraints) v.handle with
      | none => entry
      | some (h, constraint) => Pool.pinnedEntry entry constraint.position h := by
  obtain ⟨arcs, others, -, constraints, -⟩ := Sketch.compile_eq_ok_iff.mp done
  have loose : pool.isPinned v.handle = false := by simp [Pool.isPinned, unbound]
  have compiled := Sketch.entry?_compileConstraints constraints v
  simp only [loose, Bool.false_eq_true, if_false] at compiled
  exact compiled

/-- What compiling leaves free keeps its value. -/
theorem valuation_of_free (unbound : ∀ v, pool.binding? v = none)
    (done : sketch.compile pool skipFeatures skipConstraints = .ok (pool', blocks))
    (free : pool'.isFree v = true) : pool'.valuation v = pool.valuation v := by
  obtain ⟨entry', found'⟩ := Pool.mem_keys_iff.mp (Pool.mem_keys_of_isFree free)
  have compiled := entry?_of_compile unbound done v
  rw [found'] at compiled
  obtain ⟨entry, found, made⟩ := Option.map_eq_some_iff.mp compiled.symm
  rw [Pool.valuation_of_found found', Pool.valuation_of_found found]
  rw [Pool.isFree, found'] at free
  cases fix : Sketch.firstFix? (sketch.kept skipConstraints) v.handle with
  | none =>
    rw [fix] at made
    obtain rfl : entry = entry' := made
    rfl
  | some item =>
    rw [fix] at made
    subst made
    revert free
    cases component : entry.key.component <;> simp [Pool.pinnedEntry, component]

/-- **What compiling binds has the value that it is bound to**, whatever it was before. -/
theorem valuation_of_bound (unbound : ∀ v, pool.binding? v = none)
    (same : Pool.SameShape pool other)
    (done : sketch.compile pool skipFeatures skipConstraints = .ok (pool', blocks))
    (done' : sketch.compile other skipFeatures skipConstraints = .ok (other', blocks'))
    (bound : pool'.isFree v = false) : other'.valuation v = pool'.valuation v := by
  by_cases registered : v ∈ pool.keys
  · obtain ⟨entry, found⟩ := Pool.mem_keys_iff.mp registered
    obtain ⟨entry', found'⟩ := Pool.mem_keys_iff.mp (same.keys ▸ registered)
    have compiled := entry?_of_compile unbound done v
    have compiled' := entry?_of_compile
      (fun v => (same.binding? v).trans (unbound v)) done' v
    rw [found, Option.map_some] at compiled
    rw [found', Option.map_some] at compiled'
    rw [Pool.valuation_of_found compiled, Pool.valuation_of_found compiled']
    rw [Pool.isFree, compiled] at bound
    have free : entry.binding = none := by
      rw [← Pool.binding?_of_found found, unbound]
    cases fix : Sketch.firstFix? (sketch.kept skipConstraints) v.handle with
    | none =>
      rw [fix] at bound
      simp [free] at bound
    | some item =>
      rw [fix] at bound
      have key := Pool.key_of_found found
      have key' := Pool.key_of_found found'
      revert bound
      cases component : v.component <;>
        simp [Pool.pinnedEntry, key, key', component, free]
  · have missing : v ∉ pool'.keys := by rwa [Sketch.keys_compile done]
    have missing' : v ∉ other'.keys := by rwa [Sketch.keys_compile done', same.keys]
    rw [Pool.valuation_of_not_mem_keys missing, Pool.valuation_of_not_mem_keys missing']

end Compiling

/-! ### Islands and faults hang on the shape of the pool -/

section Shape

variable {α : Type} [Scalar α] {pool other : Pool α}

omit [Scalar α] in
theorem Pool.SameShape.freeKeys (same : Pool.SameShape pool other) :
    other.freeKeys = pool.freeKeys := by
  rw [Pool.freeKeys_eq, Pool.freeKeys_eq, same.keys, funext same.isFree]

theorem partition_of_sameShape (same : Pool.SameShape pool other) (blocks : List (Block α))
    (links : List (List Variable)) :
    partition other blocks links = partition pool blocks links := by
  have relevant : Partition.relevant other = Partition.relevant pool := by
    funext group
    rw [Partition.relevant, Partition.relevant, funext same.isFree]
  have sets : Partition.sets other blocks links = Partition.sets pool blocks links := by
    simp only [Partition.sets, Partition.joinLinks, Partition.joinBlocks, Partition.joinPoints,
      relevant, same.freeKeys, funext same.isFree, funext same.contains]
  have island : Partition.islandAt other blocks = Partition.islandAt pool blocks := by
    funext sets index root
    simp only [Partition.islandAt, Partition.anchor?, relevant, same.keys, funext same.isFree]
    rfl
  simp only [partition, Partition.roots, Partition.anchor?, sets, relevant, island, same.keys]
  rfl

theorem Plan.allocate_of_sameShape (same : Pool.SameShape pool other) {sketch drawn : Sketch α}
    (alike : sketch.Alike drawn) (islands : List (Island α)) (flaws : List (Flaw α)) :
    allocate drawn other islands flaws = allocate sketch pool islands flaws := by
  have home : ∀ unknowns, home? other islands unknowns = home? pool islands unknowns := by
    intro unknowns
    simp only [home?, same.isFree]
  simp only [allocate, touched, Sketch.closure_congr alike same, home]

end Shape

/-! ### Two plans -/

section Plans

variable {α : Type} [Scalar α] {sketch other : Sketch α} {start start' : Pool α}
  {plan plan' : Plan α} {blocks blocks' : List (Block α)}

/-- The plans differ in the values of free variables only, and in what a drag adds. -/
structure Plan.Agrees (plan plan' : Plan α) : Prop where
  flaws : plan'.flaws = plan.flaws
  islands : plan'.islands = plan.islands
  faults : plan'.faults = plan.faults
  orphans : plan'.orphans = plan.orphans
  shape : Pool.SameShape plan.pool plan'.pool
  bound : ∀ v, plan.pool.isFree v = false → plan'.pool.valuation v = plan.pool.valuation v

theorem Plan.Made.keys_eq (made : Plan.Made sketch start plan blocks) :
    plan.pool.keys = start.keys :=
  Sketch.keys_compile made.compiled

theorem Plan.Made.valuation_of_free (made : Plan.Made sketch start plan blocks)
    (unbound : ∀ v, start.binding? v = none) {v : Variable} (free : plan.pool.isFree v = true) :
    plan.pool.valuation v = start.valuation v :=
  PlaneSketch.valuation_of_free unbound made.compiled free

/-- **Drawings with the same outline are planned for in the same way.** -/
theorem Plan.Made.agrees (outline : sketch.SameOutline other)
    (shape : Pool.SameShape start start') (unbound : ∀ v, start.binding? v = none)
    (made : Plan.Made sketch start plan blocks) (made' : Plan.Made other start' plan' blocks') :
    plan.Agrees plan' := by
  have compiled := made'.compiled
  rw [outline.compiled_eq] at compiled
  obtain ⟨pool, compiled', shape'⟩ := Sketch.compile_of_sameShape shape made.compiled
  obtain ⟨rfl, rfl⟩ : pool = plan'.pool ∧ blocks = blocks' := by
    simpa using compiled'.symm.trans compiled
  have touched : touched other plan'.pool = touched sketch plan.pool := by
    funext flaw
    exact Sketch.closure_congr outline.features shape' flaw.references
  have islands : plan'.islands = plan.islands := by
    have done := made'.islands
    rw [Plan.islandsOf, partition_of_sameShape shape', touched, outline.flaws_eq,
      ← Plan.islandsOf, made.islands] at done
    exact (Except.ok.inj done).symm
  have allocated : (plan'.faults, plan'.orphans) = (plan.faults, plan.orphans) := by
    rw [made'.allocated, made.allocated, islands, outline.flaws_eq,
      allocate_of_sameShape shape' outline.features]
  exact {
    flaws := by rw [made'.flaws, made.flaws, outline.flaws_eq]
    islands
    faults := congrArg Prod.fst allocated
    orphans := congrArg Prod.snd allocated
    shape := shape'
    bound := fun v bound => valuation_of_bound unbound shape made.compiled compiled bound }

namespace Plan.Agrees

variable (agrees : plan.Agrees plan')

include agrees

theorem faultsOf (index : Nat) : plan'.faultsOf index = plan.faultsOf index := by
  rw [Plan.faultsOf, Plan.faultsOf, agrees.faults]

end Plan.Agrees

variable {session later : Session α}

/-- **Two solves of drawings with the same outline have plans that agree**, whatever is
remembered. -/
theorem Plan.Made.agrees_of_seeded (outline : sketch.SameOutline other)
    (made : Plan.Made sketch (session.seeded sketch) plan blocks)
    (made' : Plan.Made other (later.seeded other) plan' blocks') : plan.Agrees plan' := by
  have shape : Pool.SameShape (session.seeded sketch) (later.seeded other) :=
    (session.sameShape_seeded sketch).symm.trans
      ((Pool.sameShape_ofSketch outline.features).trans (later.sameShape_seeded other))
  exact made.agrees outline shape (session.binding?_seeded sketch) made'

/-- What a plan is free to move is registered for the drawing. -/
theorem Plan.Made.registered_of_free
    (made : Plan.Made sketch (session.seeded sketch) plan blocks) {v : Variable}
    (free : plan.pool.isFree v = true) : v ∈ (Pool.ofSketch sketch).keys := by
  rw [← (session.sameShape_seeded sketch).keys, ← made.keys_eq]
  exact Pool.mem_keys_of_isFree free

/-- **What a plan is free to move starts where it is remembered**, or else drawn. -/
theorem Plan.Made.seed?_eq (made : Plan.Made sketch (session.seeded sketch) plan blocks)
    (distinct : session.Distinct) {v : Variable} (free : plan.pool.isFree v = true) :
    session.seed? sketch v = some (plan.pool.valuation v) := by
  rw [made.valuation_of_free (session.binding?_seeded sketch) free]
  exact Session.seed?_eq distinct (made.registered_of_free free)

end Plans

/-! ### Equations that read the same -/

namespace Equations

variable {α : Type} [Scalar α] {system other : Equations α} {methods : Methods α}
  {options : Options α}

/-- The same blocks over the same free variables, and the same constants where a block reads
them. -/
structure Same (system other : Equations α) : Prop where
  blocks : other.blocks = system.blocks
  free : other.free = system.free
  constants : ∀ block ∈ system.blocks, ∀ v ∈ block.unknowns, v ∉ system.free →
    other.constants v = system.constants v

namespace Same

variable (same : system.Same other)

include same

theorem valuation {block : Block α} (listed : block ∈ system.blocks) {v : Variable}
    (read : v ∈ block.unknowns) (x : List α) : other.valuation x v = system.valuation x v := by
  have column : other.column? v = system.column? v := by rw [column?, column?, same.free]
  rw [Equations.valuation, Equations.valuation, column]
  cases place : system.column? v with
  | none => exact same.constants block listed v read (column?_eq_none_iff.mp place)
  | some i => rfl

/-- **The residuals are the same** at every position. -/
theorem residuals : other.residuals = system.residuals := by
  funext x
  rw [Equations.residuals, Equations.residuals, same.blocks]
  exact List.flatMap_congr fun block listed =>
    block.residual_congr fun v read => same.valuation listed read x

theorem jacobian : other.jacobian = system.jacobian := by
  funext x
  rw [Equations.jacobian, Equations.jacobian, same.blocks, same.free]
  exact List.flatMap_congr fun block listed =>
    block.jacobian_congr (fun v read => same.valuation listed read x) system.free

omit [Scalar α] in
theorem rows : other.rows = system.rows := by
  rw [Equations.rows, Equations.rows, same.blocks]

theorem outcomeAt : other.outcomeAt options = system.outcomeAt options := by
  funext x steps
  simp only [Equations.outcomeAt, same.residuals, same.jacobian]

/-- **They are solved in the same way.** -/
theorem solve (pull : Option (Pull α)) (x : List α) :
    other.solve methods options pull x = system.solve methods options pull x := by
  simp only [Equations.solve, Equations.conclude, Descent.hard, Descent.pulled,
    Descent.Problem.hard, Descent.Problem.pulled, same.free, same.rows, same.outcomeAt,
    same.residuals, same.jacobian]

/-- **They are diagnosed in the same way.** -/
theorem diagnose (pool : Pool α) (outcome : Outcome α) :
    PlaneSketch.diagnose methods options pool other outcome =
      PlaneSketch.diagnose methods options pool system outcome := by
  obtain ⟨blocks, free, constants⟩ := system
  obtain ⟨blocks', free', constants'⟩ := other
  obtain rfl : blocks' = blocks := same.blocks
  obtain rfl : free' = free := same.free
  rfl

end Same

end Equations

/-! ### An island in plans that agree -/

section Islands

variable {α : Type} [Scalar α] {plan plan' : Plan α} {blocks : List (Block α)}
  {links : List (List Variable)} {island : Island α} {methods : Methods α} {options : Options α}

namespace Plan.Agrees

variable (agrees : plan.Agrees plan')

include agrees

/-- **An island has the same equations in both plans**: what its blocks read is solved for in it, or
bound. -/
theorem same_system (components : Partition.Components plan.pool blocks links plan.islands)
    (known : island ∈ plan.islands) : (plan.system island).Same (plan'.system island) where
  blocks := rfl
  free := rfl
  constants block listed v read outside := by
    refine agrees.bound v ?_
    rw [Bool.eq_false_iff]
    exact fun free => outside (components.block_free island known block listed v read free)

/-- At the same position its members have the same values. -/
theorem valuation_eq (islands : partition plan.pool blocks links = .ok plan.islands)
    (known : island ∈ plan.islands) {v : Variable} (inside : v ∈ island.members) (x : List α) :
    (plan'.system island).valuation x v = (plan.system island).valuation x v := by
  by_cases unknown : v ∈ island.unknowns
  · exact Equations.valuation_of_mem unknown x
  · have bound : plan.pool.isFree v = false := by
      rw [Bool.eq_false_iff]
      exact fun free => unknown (Partition.mem_unknowns_of_free islands known inside free)
    rw [Plan.system, Plan.system, Equations.valuation_of_not_mem unknown,
      Equations.valuation_of_not_mem unknown, agrees.bound v bound]

/-- Solved to the same position, its members have the same values. -/
theorem value_eq (islands : partition plan.pool blocks links = .ok plan.islands)
    (known : island ∈ plan.islands) {s s' : Plan.Solved α}
    (done : plan.solved methods options island = .ok s)
    (done' : plan'.solved methods options island = .ok s')
    (position : s'.outcome.x = s.outcome.x) {v : Variable} (inside : v ∈ island.members) :
    s'.system.valuation s'.outcome.x v = s.system.valuation s.outcome.x v := by
  obtain ⟨-, system, -⟩ := Plan.exists_of_solved done
  obtain ⟨-, system', -⟩ := Plan.exists_of_solved done'
  rw [system, system', position, agrees.valuation_eq islands known inside]

/-- **Solved to the same position, it is reported in the same way**, but for the steps taken and
for what was remembered. -/
theorem report_eq (components : Partition.Components plan.pool blocks links plan.islands)
    (known : island ∈ plan.islands) {s s' : Plan.Solved α} {steps : Nat}
    (done : plan.solved methods options island = .ok s)
    (done' : plan'.solved methods options island = .ok s')
    (outcome : s'.outcome = { s.outcome with iterations := steps }) {warm warm' : Session α}
    {report report' : Report α} (reported : Reported plan methods options warm island report)
    (reported' : Reported plan' methods options warm' island report')
    (unskipped : report.status ≠ .skipped) :
    { report with iterations := steps, warmStarted := report'.warmStarted } = report' := by
  have same := agrees.same_system components known
  obtain ⟨-, system, -⟩ := Plan.exists_of_solved done
  obtain ⟨-, system', -⟩ := Plan.exists_of_solved done'
  cases reported with
  | skipped faulty => exact absurd rfl unskipped
  | solved sound solved shape diagnosed =>
    obtain rfl := Except.ok.inj (done.symm.trans solved)
    cases reported' with
    | skipped faulty => exact absurd ((agrees.faultsOf _).trans sound) faulty
    | solved _ solved' shape' diagnosed' =>
      obtain rfl := Except.ok.inj (done'.symm.trans solved')
      -- a diagnosis does not ask how many steps were taken
      have diagnosis : diagnose methods options plan.pool (plan.system island) s'.outcome =
          diagnose methods options plan.pool (plan.system island) s.outcome := by
        rw [outcome]
        rfl
      rw [system', same.diagnose, diagnose_of_sameShape (agrees.shape.trans shape'), diagnosis,
        ← diagnose_of_sameShape shape, ← system, diagnosed] at diagnosed'
      obtain rfl := Except.ok.inj diagnosed'
      rw [outcome, system', same.rows, ← system]
      rfl

end Plan.Agrees

end Islands

/-! ### An island under another number -/

section Recurring

variable {α : Type} [Scalar α] {plan plan' : Plan α} {island other : Island α}
  {methods : Methods α} {options : Options α} {warm warm' : Session α}

/-- An island recurs in another plan: its number apart it is the same there, it has the same flaws
and is pulled in the same way, and its members and all that its blocks read stand where they do in
the first plan. -/
structure Plan.Recurs (plan plan' : Plan α) (island other : Island α) : Prop where
  renumbered : { island with index := other.index } = other
  dragging : plan'.dragging = plan.dragging
  anchors : plan'.anchors = plan.anchors
  target : plan'.target? other.index = plan.target? island.index
  faults : plan'.faultsOf other.index = plan.faultsOf island.index
  members_stand : ∀ v ∈ island.members, plan'.pool.valuation v = plan.pool.valuation v
  blocks_stand : ∀ block ∈ island.blocks, ∀ v ∈ block.unknowns,
    plan'.pool.valuation v = plan.pool.valuation v
  bindings : ∀ block ∈ island.blocks, ∀ v ∈ block.unknowns,
    plan'.pool.binding? v = plan.pool.binding? v

namespace Plan.Recurs

variable (recurs : plan.Recurs plan' island other) {s s' : Plan.Solved α}

include recurs

theorem blocks : other.blocks = island.blocks := by
  rw [← recurs.renumbered]

theorem unknowns : other.unknowns = island.unknowns := by
  rw [← recurs.renumbered]

theorem members : other.members = island.members := by
  rw [← recurs.renumbered]
  rfl

theorem same_system : (plan.system island).Same (plan'.system other) where
  blocks := recurs.blocks
  free := recurs.unknowns
  constants block listed v read _ := recurs.blocks_stand block listed v read

/-- **It is solved in the same way.** -/
theorem outcome_eq (done : plan.solved methods options island = .ok s)
    (done' : plan'.solved methods options other = .ok s') : s'.outcome = s.outcome := by
  obtain ⟨-, -, solved⟩ := Plan.exists_of_solved done
  obtain ⟨-, -, solved'⟩ := Plan.exists_of_solved done'
  have settings : plan'.optionsFor options other.index = plan.optionsFor options island.index := by
    rw [Plan.optionsFor, Plan.optionsFor, Plan.isFrozen, Plan.isFrozen, recurs.dragging,
      recurs.target]
  have columns : (plan'.system other).column? = (plan.system island).column? := by
    funext v
    rw [Equations.column?, Equations.column?, recurs.same_system.free]
  have pulled : plan'.pull? options (plan'.system other) other.index =
      plan.pull? options (plan.system island) island.index := by
    simp only [Plan.pull?, Equations.pull?, recurs.target, recurs.anchors, columns]
  have start : other.unknowns.map plan'.pool.valuation =
      island.unknowns.map plan.pool.valuation := by
    rw [recurs.unknowns]
    exact List.map_congr_left fun v unknown =>
      recurs.members_stand v (List.mem_append_left _ unknown)
  rw [settings, pulled, start, recurs.same_system.solve, solved] at solved'
  exact (Except.ok.inj solved').symm

/-- Its members end up where they do in the first plan. -/
theorem value_eq (done : plan.solved methods options island = .ok s)
    (done' : plan'.solved methods options other = .ok s') {v : Variable}
    (inside : v ∈ island.members) :
    s'.system.valuation s'.outcome.x v = s.system.valuation s.outcome.x v := by
  obtain ⟨-, system, -⟩ := Plan.exists_of_solved done
  obtain ⟨-, system', -⟩ := Plan.exists_of_solved done'
  have column : (plan'.system other).column? v = (plan.system island).column? v := by
    rw [Equations.column?, Equations.column?, recurs.same_system.free]
  rw [system, system', recurs.outcome_eq done done', Equations.valuation, Equations.valuation,
    column]
  split
  · rfl
  · exact recurs.members_stand v inside

/-- **It is reported in the same way**, number apart. -/
theorem report_eq {report report' : Report α}
    (remembers : island.unknowns.any warm'.remembers = island.unknowns.any warm.remembers)
    (reported : Reported plan methods options warm island report)
    (reported' : Reported plan' methods options warm' other report') :
    { report' with index := report.index } = report := by
  cases reported with
  | skipped faulty =>
    cases reported' with
    | skipped _ =>
      rw [recurs.faults, ← recurs.renumbered]
      rfl
    | solved sound _ _ _ => exact absurd (recurs.faults.symm.trans sound) faulty
  | @solved s pool diagnosis sound done shape diagnosed =>
    cases reported' with
    | skipped faulty => exact absurd (recurs.faults.trans sound) faulty
    | @solved s' pool' diagnosis' _ done' shape' diagnosed' =>
      obtain ⟨-, system, -⟩ := Plan.exists_of_solved done
      obtain ⟨-, system', -⟩ := Plan.exists_of_solved done'
      have bindings : ∀ block ∈ (plan.system island).blocks, ∀ v ∈ block.unknowns,
          pool'.binding? v = pool.binding? v := fun block listed v read => by
        rw [shape'.binding?, shape.binding?, recurs.bindings block listed v read]
      rw [system', recurs.same_system.diagnose, recurs.outcome_eq done done',
        diagnose_of_bindings bindings, ← system, diagnosed] at diagnosed'
      obtain rfl := Except.ok.inj diagnosed'
      rw [system', recurs.same_system.rows, ← system, recurs.outcome_eq done done',
        recurs.unknowns, remembers, ← recurs.renumbered]
      rfl

end Plan.Recurs

end Recurring

end PlaneSketch
