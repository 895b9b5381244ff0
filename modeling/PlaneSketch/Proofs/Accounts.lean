import Mathlib
import PlaneSketch.Proofs.Arena
import PlaneSketch.Proofs.Containment
import PlaneSketch.Proofs.Planning
import PlaneSketch.Proofs.Values

/-!
Everything is accounted for once.

A variable comes to a report with its island, a constraint with a block that it owns or with a flaw.
What is lost or doubled on the way would be missing in `Result.Accounts`, or be in it twice.

* `mem_owners_compileConstraints_iff`: a constraint binds its point or owns a block, never both.
* `once_of_owner`, `once_of_flawed`: each of the two ways leads to one report.
* `accounts_of_solve`: so every solve that returns accounts for everything once.
-/

namespace PlaneSketch

variable {α : Type} [Scalar α]

/-! ### Constraints that bind and constraints that own a block -/

namespace Sketch

variable {sketch : Sketch α} {pool pool' between : Pool α} {items : List (Handle × Constraint α)}
  {blocks own : List (Block α)} {h : Handle} {constraint : Constraint α}

/-- The constraints that own a block. -/
def owners (blocks : List (Block α)) : List Handle := blocks.filterMap (·.owner.constraint?)

omit [Scalar α] in
theorem mem_owners_iff :
    h ∈ owners blocks ↔ ∃ block ∈ blocks, block.owner.constraint? = some h := by
  rw [owners, List.mem_filterMap]

omit [Scalar α] in
/-- Blocks of one constraint are the same when each constraint owns one at most. -/
theorem eq_of_owner {block other : Block α} (distinct : (owners blocks).Nodup)
    (member : block ∈ blocks) (member' : other ∈ blocks) (owner : block.owner.constraint? = some h)
    (owner' : other.owner.constraint? = some h) : block = other := by
  obtain ⟨before, after, rfl⟩ := List.append_of_mem member
  simp only [owners, List.filterMap_append, List.filterMap_cons, owner, List.nodup_middle,
    List.nodup_cons, List.mem_append, not_or] at distinct
  rcases List.mem_append.mp member' with earlier | here
  · exact absurd (List.mem_filterMap.mpr ⟨other, earlier, owner'⟩) distinct.1.1
  · rcases List.mem_cons.mp here with same | later
    · exact same.symm
    · exact absurd (List.mem_filterMap.mpr ⟨other, later, owner'⟩) distinct.1.2

/-- Compiling a constraint binds what it fixes, if nothing did before. -/
theorem Compiled.isPinned_eq_false_iff (step : sketch.Compiled pool h constraint between own)
    (p : Handle) : between.isPinned p = false ↔ pool.isPinned p = false ∧ ¬constraint.Fixes p := by
  cases step with
  | @bound q fixes unpinned hasX =>
    have only : constraint.Fixes p ↔ p = q :=
      ⟨fun fixes' => Option.some.inj (fixes'.2.symm.trans fixes.2), fun same => same ▸ fixes⟩
    rw [Pool.isPinned_pin hasX, only]
    simp
  | block pinned =>
    refine ⟨fun unpinned => ⟨unpinned, fun fixes => ?_⟩, And.left⟩
    rw [pinned p fixes] at unpinned
    cases unpinned

/-- Each constraint owns one block at most. -/
theorem sublist_owners (done : sketch.compileConstraints pool items = .ok (pool', blocks)) :
    (owners blocks).Sublist (items.map (·.1)) := by
  induction items generalizing pool blocks with
  | nil =>
    cases done
    exact .slnil
  | cons item items ih =>
    obtain ⟨between, own, others, first, rest, rfl⟩ := compileConstraints_cons_eq_ok_iff.mp done
    rw [owners, List.filterMap_append, ← owners, ← owners]
    cases first with
    | bound => exact (ih rest).cons _
    | block => exact (ih rest).cons_cons _

/-- **A constraint owns a block or binds its point**, which it does when it is the first to fix
it. -/
theorem mem_owners_compileConstraints_iff
    (done : sketch.compileConstraints pool items = .ok (pool', blocks))
    (distinct : (items.map (·.1)).Nodup) (member : (h, constraint) ∈ items) :
    h ∈ owners blocks ↔
      ∀ p, pool.isPinned p = false → firstFix? items p ≠ some (h, constraint) := by
  induction items generalizing pool blocks with
  | nil => cases member
  | cons item items ih =>
    obtain ⟨k, other⟩ := item
    obtain ⟨between, own, others, first, rest, rfl⟩ := compileConstraints_cons_eq_ok_iff.mp done
    rw [List.map_cons, List.nodup_cons] at distinct
    obtain ⟨fresh, distinct⟩ := distinct
    rw [owners, List.filterMap_append, ← owners, ← owners, List.mem_append]
    rcases List.mem_cons.mp member with same | later
    · cases same
      have alone : h ∉ owners others := fun owned => fresh ((sublist_owners rest).subset owned)
      cases first with
      | @bound p fixes unpinned =>
        refine iff_of_false (by simpa [owners] using alone) fun none => none p unpinned ?_
        simp [firstFix?, fixes]
      | block pinned =>
        refine iff_of_true (.inl (by simp [owners, Owner.constraint?])) fun p unpinned found => ?_
        have loose : ¬constraint.Fixes p := fun fixes => by
          rw [pinned p fixes] at unpinned
          cases unpinned
        rw [firstFix?, List.find?_cons_of_neg (by simpa using loose)] at found
        exact fresh (List.mem_map_of_mem (List.mem_of_find?_eq_some found))
    · have ne : h ≠ k := fun same => fresh (same ▸ List.mem_map_of_mem (f := (·.1)) later)
      have notOwn : h ∉ owners own := by
        cases first with
        | bound => simp [owners]
        | block => simpa [owners, Owner.constraint?] using ne
      rw [or_iff_right notOwn, ih rest distinct later]
      refine forall_congr' fun p => ?_
      rw [first.isPinned_eq_false_iff]
      by_cases fixes : other.Fixes p
      · simp [firstFix?, fixes, ne.symm]
      · simp [firstFix?, fixes]


/-! ### A whole drawing -/

section Whole

variable {skipFeatures skipConstraints : List Handle}

/-- Arcs are no constraints. -/
theorem owners_compile
    (done : sketch.compile pool skipFeatures skipConstraints = .ok (pool', blocks)) :
    ∃ others, sketch.compileConstraints pool (sketch.kept skipConstraints) = .ok (pool', others) ∧
      owners blocks = owners others := by
  obtain ⟨arcs, others, features, constraints, rfl⟩ := compile_eq_ok_iff.mp done
  have none : owners arcs = [] := by
    rw [owners, List.filterMap_eq_nil_iff]
    intro block member
    obtain ⟨k, -, -, -, -, -, -, -, -, rfl⟩ := arc_of_mem features member
    rfl
  exact ⟨others, constraints, by rw [owners, List.filterMap_append, ← owners, none, List.nil_append,
    ← owners]⟩

omit [Scalar α] in
theorem nodup_kept (skip : List Handle) : ((sketch.kept skip).map (·.1)).Nodup :=
  sketch.constraints.nodup_handles.sublist (List.filter_sublist.map _)

theorem nodup_owners
    (done : sketch.compile pool skipFeatures skipConstraints = .ok (pool', blocks)) :
    (owners blocks).Nodup := by
  obtain ⟨others, compiled, same⟩ := owners_compile done
  rw [same]
  exact (nodup_kept _).sublist (sublist_owners compiled)

/-- What is left out owns no block. -/
theorem not_mem_owners_of_skipped
    (done : sketch.compile pool skipFeatures skipConstraints = .ok (pool', blocks))
    (skipped : h ∈ skipConstraints) : h ∉ owners blocks := by
  intro owned
  obtain ⟨others, compiled, same⟩ := owners_compile done
  rw [same] at owned
  obtain ⟨⟨k, constraint⟩, listed, rfl⟩ := List.mem_map.mp ((sublist_owners compiled).subset owned)
  exact (mem_kept_iff.mp listed).2 skipped

/-- The constraint that binds a coordinate is the first to fix its point. -/
theorem binding?_compile_iff (unbound : ∀ v, pool.binding? v = none)
    (done : sketch.compile pool skipFeatures skipConstraints = .ok (pool', blocks))
    {v : Variable} : pool'.binding? v = some h ↔ v ∈ pool.keys ∧ v.component ≠ .r ∧
      ∃ constraint, firstFix? (sketch.kept skipConstraints) v.handle = some (h, constraint) := by
  rw [Pool.binding?, entry?_of_compile unbound done, Pool.mem_keys_iff]
  have free := unbound v
  rw [Pool.binding?] at free
  cases found : pool.entry? v with
  | none => simp
  | some entry =>
    rw [found, Option.bind_some] at free
    have key := Pool.key_of_found found
    cases first : firstFix? (sketch.kept skipConstraints) v.handle with
    | none => simp [free]
    | some item =>
      cases component : v.component <;>
        simp [Pool.pinnedEntry, key, component, free, Prod.ext_iff]

/-- A constraint without a flaw that owns no block binds its point, and one that owns a block binds
nothing. -/
theorem binds_or_owns (same : Pool.SameShape (Pool.ofSketch sketch) pool)
    (done : Plan.compiled sketch pool sketch.flaws = .ok (pool', blocks))
    (found : sketch.constraints.get? h = some constraint)
    (sound : h ∉ Plan.flawedConstraints sketch.flaws) :
    (∃ p, constraint.Fixes p ∧ pool'.binding? ⟨p, .x⟩ = some h ∧ pool'.binding? ⟨p, .y⟩ = some h ∧
      h ∉ owners blocks) ∨
    (∀ v, pool'.binding? v ≠ some h) ∧ h ∈ owners blocks := by
  have unbound := Pool.unbound_of_sameShape same
  have unpinned : ∀ p, pool.isPinned p = false := by simp [Pool.isPinned, unbound]
  obtain ⟨others, compiled, owned⟩ := owners_compile done
  have decided := mem_owners_compileConstraints_iff compiled (nodup_kept _)
    (mem_kept_iff.mpr ⟨found, sound⟩)
  rw [owned, decided]
  by_cases binds : ∃ p, firstFix? (sketch.kept (Plan.flawedConstraints sketch.flaws)) p =
      some (h, constraint)
  · obtain ⟨p, first⟩ := binds
    have fixes : constraint.Fixes p := by simpa using List.find?_some first
    obtain ⟨kinds, fit⟩ := fit_of_not_flawed found sound
    obtain ⟨hasX, hasY⟩ := fit.mem_keys_of_fixes (covers_of_sameShape same) fixes
    refine .inl ⟨p, fixes, ?_, ?_, fun none => none p (unpinned p) first⟩
    · exact (binding?_compile_iff unbound done).mpr ⟨hasX, by simp, constraint, first⟩
    · exact (binding?_compile_iff unbound done).mpr ⟨hasY, by simp, constraint, first⟩
  · refine .inr ⟨fun v bound => ?_, fun p _ first => binds ⟨p, first⟩⟩
    obtain ⟨-, -, other, first⟩ := (binding?_compile_iff unbound done).mp bound
    obtain ⟨found', -⟩ := mem_kept_iff.mp (List.mem_of_find?_eq_some first)
    obtain rfl := Option.some.inj (found.symm.trans found')
    exact binds ⟨v.handle, first⟩

/-- A constraint with a flaw binds nothing. -/
theorem not_binds_of_flawed (same : Pool.SameShape (Pool.ofSketch sketch) pool)
    (done : Plan.compiled sketch pool sketch.flaws = .ok (pool', blocks))
    (flawed : h ∈ Plan.flawedConstraints sketch.flaws) (v : Variable) :
    pool'.binding? v ≠ some h := by
  have unbound := Pool.unbound_of_sameShape same
  intro bound
  obtain ⟨-, -, other, first⟩ := (binding?_compile_iff unbound done).mp bound
  exact (mem_kept_iff.mp (List.mem_of_find?_eq_some first)).2 flawed

end Whole

end Sketch

/-! ### Constraints in reports -/

section Reporting

variable {plan : Plan α} {methods : Methods α} {options : Options α} {warm : Session α}
  {island : Island α} {report : Report α} {h : Handle}

theorem Reported.index (reported : Reported plan methods options warm island report) :
    report.index = island.index := by
  cases reported <;> rfl

omit [Scalar α] in
theorem Island.mem_constraints_iff : h ∈ island.constraints ↔ h ∈ Sketch.owners island.blocks :=
  mem_firstOccurrences

theorem mem_constraints_skipped_iff {flaws : List (Flaw α)} :
    h ∈ (Report.skipped island flaws).constraints ↔
      h ∈ Sketch.owners island.blocks ∨ h ∈ Plan.flawedConstraints flaws := by
  rw [Report.skipped, mem_firstOccurrences, List.mem_append, Island.mem_constraints_iff,
    Plan.flawedConstraints]

/-- The constraints of a report own blocks of its island or are flawed. -/
theorem Reported.mem_constraints_iff
    (reported : Reported plan methods options warm island report) :
    h ∈ report.constraints ↔
      h ∈ Sketch.owners island.blocks ∨ h ∈ Plan.flawedConstraints report.flaws := by
  cases reported with
  | skipped => exact mem_constraints_skipped_iff
  | solved =>
    rw [Report.ofDiagnosis, Island.mem_constraints_iff]
    simp [Plan.flawedConstraints]

theorem OrphanReport.mem_constraints_iff {flaw : Flaw α} (orphan : OrphanReport flaw report) :
    h ∈ report.constraints ↔ h ∈ Plan.flawedConstraints report.flaws := by
  obtain ⟨index, rfl⟩ := orphan
  rw [mem_constraints_skipped_iff]
  exact or_iff_right (by simp [Sketch.owners])

end Reporting

/-! ### Numbers of reports -/

section Numbering

variable {plan : Plan α} {methods : Methods α} {options : Options α} {session session' : Session α}
  {result : Result α} {blocks : List (Block α)} {links : List (List Variable)}

/-- Reports are numbered in order. -/
def Numbered (reports : List (Report α)) : Prop :=
  reports.map (·.index) = List.range reports.length

omit [Scalar α] in
theorem Numbered.index_eq {reports : List (Report α)} {report : Report α} {i : Nat}
    (numbered : Numbered reports) (placed : reports[i]? = some report) : report.index = i := by
  obtain ⟨inside, rfl⟩ := List.getElem?_eq_some_iff.mp placed
  have same := congrArg (·[i]?) numbered
  simpa [inside] using same

theorem numbered_addOrphans (orphans : List (Flaw α)) {gathered : Session.Gathered α}
    (numbered : Numbered gathered.reports) :
    Numbered (Session.addOrphans orphans gathered).reports := by
  induction orphans generalizing gathered with
  | nil => exact numbered
  | cons flaw orphans ih =>
    refine ih ?_
    show Numbered (gathered.reports ++ [_])
    rw [Numbered, List.map_append, numbered, List.length_append]
    exact List.range_succ.symm

theorem numbered_of_carryOut
    (components : Partition.Components plan.pool blocks links plan.islands)
    (done : session.carryOut methods options plan = (session', .ok result)) :
    Numbered result.islands := by
  obtain ⟨all, gathered, solved, gathering, rfl⟩ := exists_of_carryOut done
  have tells := Tells.gather components solved gathering
  refine numbered_addOrphans plan.orphans ?_
  have same : plan.islands.map (·.index) = gathered.reports.map (·.index) :=
    map_eq_of_forall₂ (tells.reports.imp fun _ _ reported => reported.index.symm)
  rw [Numbered, ← same, ← tells.reports.length_eq]
  refine List.ext_getElem (by simp) fun i inside _ => ?_
  rw [List.getElem_map, List.getElem_range, components.index_eq]

end Numbering

/-! ### Every constraint once -/

/-- No constraint has two flaws. -/
theorem Sketch.nodup_flawedConstraints (sketch : Sketch α) :
    (Plan.flawedConstraints sketch.flaws).Nodup := by
  have features : (sketch.featureFlaws ++ sketch.cycleFlaws).filterMap Flaw.constraint? = [] :=
    List.filterMap_eq_nil_iff.mpr fun _ listed => constraint?_of_featureFlaw listed
  rw [Plan.flawedConstraints, flaws, List.filterMap_append, features, List.nil_append,
    constraintFlaws, List.filterMap_filterMap]
  refine sketch.constraints.nodup_handles.sublist (sublist_filterMap_map ?_ _)
  rintro ⟨h, constraint⟩ k found
  obtain ⟨flaw, flawed, owner⟩ := Option.bind_eq_some_iff.mp found
  obtain ⟨fault, -, rfl⟩ := Option.map_eq_some_iff.mp flawed
  exact Option.some.inj owner

namespace Told

variable {sketch : Sketch α} {start : Pool α} {plan : Plan α} {methods : Methods α}
  {options : Options α} {warm : Session α} {result : Result α} {blocks : List (Block α)}
  {links : List (List Variable)} {report : Report α} {h : Handle} {constraint : Constraint α}

/-- The constraints of a report own blocks of its island, or have the flaws that it reports. -/
theorem mem_constraints_iff (told : Told plan methods options warm result)
    (member : report ∈ result.islands) : h ∈ report.constraints ↔
      (∃ island ∈ plan.islands, Reported plan methods options warm island report ∧
        h ∈ Sketch.owners island.blocks) ∨ h ∈ Plan.flawedConstraints report.flaws := by
  constructor
  · intro listed
    rcases told.report_cases member with ⟨island, known, reported⟩ | ⟨flaw, -, orphan⟩
    · exact (reported.mem_constraints_iff.mp listed).imp_left fun owned =>
        ⟨island, known, reported, owned⟩
    · exact .inr (orphan.mem_constraints_iff.mp listed)
  · rintro (⟨island, -, reported, owned⟩ | flawed)
    · exact reported.mem_constraints_iff.mpr (.inl owned)
    · rcases told.report_cases member with ⟨island, -, reported⟩ | ⟨flaw, -, orphan⟩
      · exact reported.mem_constraints_iff.mpr (.inr flawed)
      · exact orphan.mem_constraints_iff.mpr flawed

section Once

variable (told : Told plan methods options warm result) (made : Plan.Made sketch start plan blocks)
  (components : Partition.Components plan.pool blocks links plan.islands)

include told made components

/-- The constraints with the flaws of all reports are those with the flaws of the drawing. -/
theorem perm_flawedConstraints :
    (result.islands.flatMap fun report => Plan.flawedConstraints report.flaws).Perm
      (Plan.flawedConstraints sketch.flaws) := by
  have shared := (told.shared made components).filterMap Flaw.constraint?
  rwa [List.filterMap_flatMap] at shared

/-- A constraint that owns a block is in the report of the island of the block alone. -/
theorem once_of_owner (numbered : Numbered result.islands) (distinct : (Sketch.owners blocks).Nodup)
    (owned : h ∈ Sketch.owners blocks) (sound : h ∉ Plan.flawedConstraints sketch.flaws) :
    HoldsOnce (h ∈ ·.constraints) result.islands := by
  obtain ⟨block, member, owner⟩ := Sketch.mem_owners_iff.mp owned
  obtain ⟨island, ⟨known, inside⟩, once⟩ := components.block_once block member
  obtain ⟨report, placed, reported⟩ := told.exists_report known
  have here : ∀ report ∈ result.islands, h ∈ report.constraints → report.index = island.index := by
    intro report member' listed
    rcases (told.mem_constraints_iff member').mp listed with
      ⟨other, known', reported', owned'⟩ | flaw
    · obtain ⟨block', inside', owner'⟩ := Sketch.mem_owners_iff.mp owned'
      obtain rfl := Sketch.eq_of_owner distinct
        ((components.blocks_order other known').subset inside') member owner' owner
      rw [reported'.index, once other ⟨known', inside'⟩]
    · exact absurd ((told.perm_flawedConstraints made components).subset
        (List.mem_flatMap.mpr ⟨report, member', flaw⟩)) sound
  refine holdsOnce_of_mem placed (reported.mem_constraints_iff.mpr
    (.inl (Sketch.mem_owners_iff.mpr ⟨block, inside, owner⟩))) ?_
  intro i j b c placed placed' holdsB holdsC
  rw [← numbered.index_eq placed, ← numbered.index_eq placed',
    here b (List.mem_of_getElem? placed) holdsB, here c (List.mem_of_getElem? placed') holdsC]

/-- A constraint with a flaw is in the report of the flaw alone. -/
theorem once_of_flawed (disowned : h ∉ Sketch.owners blocks)
    (flawed : h ∈ Plan.flawedConstraints sketch.flaws) :
    HoldsOnce (h ∈ ·.constraints) result.islands := by
  have perm := told.perm_flawedConstraints made components
  obtain ⟨report, placed, listed⟩ := List.mem_flatMap.mp (perm.mem_iff.mpr flawed)
  have apart := (List.nodup_flatMap.mp (perm.nodup_iff.mpr sketch.nodup_flawedConstraints)).2
  have only : ∀ report ∈ result.islands, h ∈ report.constraints →
      h ∈ Plan.flawedConstraints report.flaws := by
    intro report member listed
    refine ((told.mem_constraints_iff member).mp listed).resolve_left ?_
    rintro ⟨island, known, -, owned⟩
    exact disowned (((components.blocks_order island known).filterMap _).subset owned)
  refine holdsOnce_of_pairwise placed ((told.mem_constraints_iff placed).mpr (.inr listed)) ?_
  refine apart.imp_of_mem fun {r s} memberR memberS disjoint both => ?_
  exact disjoint (only r memberR both.1) (only s memberS both.2)

end Once

end Told

/-! ### The account of a result -/

/-- All variables and constraints of a drawing are accounted for once. -/
structure Result.Accounts (result : Result α) (sketch : Sketch α) (pool : Pool α) : Prop where
  /-- a free variable is in one report -/
  free_once : ∀ v, pool.isFree v = true → HoldsOnce (v ∈ ·.unknowns) result.islands
  /-- no variable is in two reports -/
  apart : result.islands.Pairwise fun report later => report.unknowns.Disjoint later.unknowns
  /-- a constraint binds its point and is in no report, or binds nothing and is in one report -/
  constraint_once : ∀ h constraint, sketch.constraints.get? h = some constraint →
    (∃ p, constraint.Fixes p ∧ pool.binding? ⟨p, .x⟩ = some h ∧ pool.binding? ⟨p, .y⟩ = some h ∧
      ∀ report ∈ result.islands, h ∉ report.constraints) ∨
    (∀ v, pool.binding? v ≠ some h) ∧ HoldsOnce (h ∈ ·.constraints) result.islands
  numbered : Numbered result.islands
  /-- the values are those of all variables but the skipped ones -/
  known : ∀ v, v ∈ result.updated.map (·.1) ↔ v ∈ pool.keys ∧ ¬result.Skips v

section Accounting

variable {sketch : Sketch α} {start : Pool α} {plan : Plan α} {methods : Methods α}
  {options : Options α} {warm : Session α} {result : Result α} {blocks : List (Block α)}
  {links : List (List Variable)}

/-- **What is told of a plan accounts for everything once.** -/
theorem Told.accounts (told : Told plan methods options warm result)
    (made : Plan.Made sketch start plan blocks)
    (components : Partition.Components plan.pool blocks links plan.islands)
    (same : Pool.SameShape (Pool.ofSketch sketch) start) (numbered : Numbered result.islands) :
    result.Accounts sketch plan.pool where
  free_once := by
    intro v free
    obtain ⟨island, ⟨known, unknown⟩, -⟩ := components.free_once v free
    obtain ⟨report, placed, reported⟩ := told.exists_report known
    refine holdsOnce_of_pairwise placed ?_ ((told.apart made components).imp fun apart both =>
      apart both.1 both.2)
    rw [reported.unknowns]
    exact List.mem_append_left _ unknown
  apart := told.apart made components
  constraint_once := by
    intro h constraint found
    by_cases flawed : h ∈ Plan.flawedConstraints sketch.flaws
    · exact .inr ⟨Sketch.not_binds_of_flawed same made.compiled flawed,
        told.once_of_flawed made components
          (Sketch.not_mem_owners_of_skipped made.compiled flawed) flawed⟩
    · rcases Sketch.binds_or_owns same made.compiled found flawed with
        ⟨p, fixes, boundX, boundY, disowned⟩ | ⟨unbinding, owned⟩
      · refine .inl ⟨p, fixes, boundX, boundY, fun report member listed => ?_⟩
        rcases (told.mem_constraints_iff member).mp listed with ⟨island, known, -, owned⟩ | flaw
        · exact disowned (((components.blocks_order island known).filterMap _).subset owned)
        · exact flawed ((told.perm_flawedConstraints made components).subset
            (List.mem_flatMap.mpr ⟨report, member, flaw⟩))
      · exact .inr ⟨unbinding, told.once_of_owner made components numbered
          (Sketch.nodup_owners made.compiled) owned flawed⟩
  numbered := numbered
  known := by
    intro v
    rw [← not_iff_not, ← Assoc.find?_eq_none_iff, ← Option.not_isSome_iff_eq_none, not_iff_not,
      told.skips_iff]
    exact told.known v

variable {ν : Type} [Ordered ν] {numerals : Numerals ν α} {session session' : Session α}
  {settings : Options ν} {drag : Option (Drag α)}

/-- **Every solve that returns accounts for everything once.** -/
theorem accounts_of_solve
    (done : session.solve numerals methods settings sketch drag = (session', .ok result)) :
    ∃ pool blocks,
      Plan.compiled sketch (session.seeded sketch) sketch.flaws = .ok (pool, blocks) ∧
        result.Accounts sketch pool := by
  obtain ⟨plan, make, carried⟩ := Session.exists_of_solve done
  obtain ⟨blocks, made⟩ := Plan.exists_made make
  have same := session.sameShape_seeded sketch
  have components := made.components same
  exact ⟨plan.pool, blocks, made.compiled,
    (told_of_carryOut components made.islands carried).accounts made components same
      (numbered_of_carryOut components carried)⟩

end Accounting

/-- In the frayed drawing one constraint binds, one owns a block and one has a flaw. -/
theorem accounts_of_solve_frayed :
    Session.fresh.solve ⟨id, fun _ => ""⟩ Methods.orthogonal Options.real frayed none =
      (Frayed.gathered.session, .ok Frayed.result) ∧
    ∃ pool blocks,
      Plan.compiled frayed (Session.fresh.seeded frayed) frayed.flaws = .ok (pool, blocks) ∧
        Frayed.result.Accounts frayed pool :=
  ⟨Frayed.solve_eq, accounts_of_solve Frayed.solve_eq⟩

end PlaneSketch
