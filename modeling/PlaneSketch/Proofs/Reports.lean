import Mathlib
import PlaneSketch.Proofs.Faults

/-!
What a solve reports, flaws or not.

Each island is reported in its place: skipped with its flaws, or with the diagnosis of its outcome.
The orphans follow. `Told` says so of a whole result, and what it reports of each variable.

* `told_of_carryOut`: so much is told by every plan that is carried out.
* `blames_of_solve`: the flaws of a drawing are shared out between the reports, and a report that
  has any is the one of all free variables that they touch.
-/

namespace PlaneSketch

variable {α : Type} [Scalar α]

/-! ### Island by island -/

/-- A diagnosis is one of an island that was solved. -/
theorem status_of_diagnose {methods : Methods α} {options : Options α} {pool : Pool α}
    {system : Equations α} {outcome : Outcome α} {diagnosis : Diagnosis}
    (done : diagnose methods options pool system outcome = .ok diagnosis) :
    diagnosis.status ≠ .skipped := by
  unfold diagnose at done
  dsimp only at done
  split at done
  · obtain ⟨rank, -, rest⟩ := bind_eq_ok_iff.mp done
    obtain ⟨dependent, -, rest⟩ := bind_eq_ok_iff.mp rest
    split at rest
    · cases rest
      dsimp only
      split <;> simp
    · cases rest
      simp
  · cases done

/-- A diagnosis asks a pool for the bindings of what its blocks read, and for nothing else. -/
theorem diagnose_of_bindings {methods : Methods α} {options : Options α} {pool other : Pool α}
    {system : Equations α}
    (same : ∀ block ∈ system.blocks, ∀ v ∈ block.unknowns, other.binding? v = pool.binding? v)
    (outcome : Outcome α) :
    diagnose methods options other system outcome =
      diagnose methods options pool system outcome := by
  have bindings : Diagnosis.rowBindings other system = Diagnosis.rowBindings pool system := by
    funext row
    unfold Diagnosis.rowBindings
    split
    · rename_i block found
      obtain ⟨place, -, placed⟩ := Option.bind_eq_some_iff.mp found
      exact List.filterMap_congr (same block (List.mem_of_getElem? placed))
    · rfl
  simp only [diagnose, Diagnosis.conflicts, bindings]

theorem diagnose_of_sameShape {methods : Methods α} {options : Options α} {pool other : Pool α}
    (same : Pool.SameShape pool other) (system : Equations α) (outcome : Outcome α) :
    diagnose methods options other system outcome =
      diagnose methods options pool system outcome :=
  diagnose_of_bindings (fun _ _ v _ => same.binding? v) outcome

/-- How an island is reported: skipped with the flaws that keep it from being solved, or else with
the diagnosis of its outcome. -/
inductive Reported (plan : Plan α) (methods : Methods α) (options : Options α)
    (warm : Session α) : Island α → Report α → Prop
  | skipped {island : Island α} : plan.faultsOf island.index ≠ [] →
      Reported plan methods options warm island (.skipped island (plan.faultsOf island.index))
  | solved {island : Island α} {s : Plan.Solved α} {pool : Pool α} {diagnosis : Diagnosis} :
      plan.faultsOf island.index = [] → plan.solved methods options island = .ok s →
      Pool.SameShape plan.pool pool →
      diagnose methods options pool s.system s.outcome = .ok diagnosis →
      Reported plan methods options warm island (.ofDiagnosis island s.system.rows s.outcome
        diagnosis (island.unknowns.any warm.remembers))

section Reporting

variable {plan : Plan α} {methods : Methods α} {options : Options α} {warm : Session α}
  {island : Island α} {report : Report α}

theorem Reported.flaws (reported : Reported plan methods options warm island report) :
    report.flaws = plan.faultsOf island.index := by
  cases reported with
  | skipped _ => rfl
  | solved sound _ _ _ => exact sound.symm

theorem Reported.unknowns (reported : Reported plan methods options warm island report) :
    report.unknowns = island.members := by
  cases reported <;> rfl

theorem Reported.skipped_iff (reported : Reported plan methods options warm island report) :
    report.status = .skipped ↔ plan.faultsOf island.index ≠ [] := by
  cases reported with
  | skipped faulty => exact iff_of_true rfl faulty
  | solved sound _ _ diagnosed =>
    exact iff_of_false (status_of_diagnose diagnosed) (by simpa using sound)

/-- What is not skipped has no flaw. -/
theorem Reported.sound (reported : Reported plan methods options warm island report)
    (unskipped : report.status ≠ .skipped) : plan.faultsOf island.index = [] := by
  by_contra faulty
  exact unskipped (reported.skipped_iff.mpr faulty)

/-- The report of an island that was solved says how its outcome came about. -/
theorem Reported.of_solved {s : Plan.Solved α}
    (reported : Reported plan methods options warm island report)
    (sound : plan.faultsOf island.index = [])
    (done : plan.solved methods options island = .ok s) :
    report.iterations = s.outcome.iterations ∧
      report.status.isConverged = s.outcome.converged ∧
      report.warmStarted = island.unknowns.any warm.remembers := by
  cases reported with
  | skipped faulty => exact absurd sound faulty
  | solved _ done' _ diagnosed =>
    obtain rfl := Except.ok.inj (done.symm.trans done')
    exact ⟨rfl, isConverged_of_diagnose diagnosed, rfl⟩

end Reporting

/-! ### All islands -/

section Gathering

variable {plan : Plan α} {methods : Methods α} {options : Options α} {warm : Session α}
  {all : List (Plan.Solved α)} {blocks : List (Block α)} {links : List (List Variable)}
  {final : Session.Gathered α}

/-- What is gathered tells of each island taken in, and has values for those alone that were
solved. -/
structure Tells (plan : Plan α) (methods : Methods α) (options : Options α) (warm : Session α)
    (taken : List (Island α)) (gathered : Session.Gathered α) : Prop where
  shape : Pool.SameShape plan.pool gathered.pool
  reports : List.Forall₂ (Reported plan methods options warm) taken gathered.reports
  only : ∀ v, (Assoc.find? v gathered.updated).isSome = true →
    ∃ island ∈ taken, plan.faultsOf island.index = [] ∧ v ∈ island.members

theorem Plan.solved_of_mem {s : Plan.Solved α} (done : plan.solvedAll methods options = .ok all)
    (member : s ∈ all) : plan.solved methods options s.island = .ok s := by
  obtain ⟨island, -, solved⟩ := mem_of_mapM_eq_ok done member
  obtain ⟨rfl, -⟩ := Plan.evaluates_of_solved solved
  exact solved

/-- **All islands are told of**, each in its place. -/
theorem Tells.gather (components : Partition.Components plan.pool blocks links plan.islands)
    (solved : plan.solvedAll methods options = .ok all)
    (done : Session.gather methods options plan warm all plan.islands
      ⟨plan.pool, warm, [], []⟩ = (final, none)) :
    Tells plan methods options warm plan.islands final := by
  refine Session.gather_induction (Tells plan methods options warm)
    components solved ?_ ?_ ⟨.refl _, .nil, fun v found => by cases found⟩ done
  · intro taken gathered island tells _ faulty
    refine ⟨tells.shape, List.rel_append tells.reports (.cons (.skipped faulty) .nil), ?_⟩
    intro v found
    obtain ⟨island, before, held⟩ := tells.only v found
    exact ⟨island, List.mem_append_left _ before, held⟩
  · intro taken gathered s diagnosis tells _ listed _ _ sound diagnosed
    refine ⟨tells.shape.trans (Pool.sameShape_scatter _ _ _), List.rel_append tells.reports
      (.cons (.solved sound (Plan.solved_of_mem solved listed) tells.shape diagnosed) .nil), ?_⟩
    intro v found
    rw [find?_take] at found
    split at found
    · rename_i inside
      exact ⟨s.island, List.mem_append_right _ List.mem_cons_self, sound, inside⟩
    · obtain ⟨island, before, held⟩ := tells.only v found
      exact ⟨island, List.mem_append_left _ before, held⟩

omit [Scalar α] in
/-- An island to be solved has an outcome. -/
theorem mem_sound_iff {island : Island α} :
    island ∈ plan.sound ↔ island ∈ plan.islands ∧ plan.faultsOf island.index = [] := by
  rw [Plan.sound, List.mem_filter, List.isEmpty_iff]

/-- A report for a flaw that belongs to no island. -/
def OrphanReport (flaw : Flaw α) (report : Report α) : Prop :=
  ∃ index, report = .skipped ⟨index, [], [], []⟩ [flaw]

theorem exists_addOrphans (orphans : List (Flaw α)) (gathered : Session.Gathered α) :
    ∃ reports, List.Forall₂ OrphanReport orphans reports ∧
      Session.addOrphans orphans gathered =
        { gathered with reports := gathered.reports ++ reports } := by
  induction orphans generalizing gathered with
  | nil => exact ⟨[], .nil, by simp [Session.addOrphans]⟩
  | cons flaw orphans ih =>
    obtain ⟨reports, each, rest⟩ :=
      ih (gathered.skip ⟨gathered.reports.length, [], [], []⟩ [flaw])
    refine ⟨.skipped ⟨gathered.reports.length, [], [], []⟩ [flaw] :: reports,
      .cons ⟨_, rfl⟩ each, ?_⟩
    rw [Session.addOrphans, List.foldl_cons, ← Session.addOrphans, rest]
    simp [Session.Gathered.skip]

end Gathering

/-! ### Values -/

section Values

variable {plan : Plan α} {methods : Methods α} {options : Options α} {warm : Session α}
  {all : List (Plan.Solved α)} {blocks : List (Block α)} {links : List (List Variable)}
  {gathered : Session.Gathered α} {v : Variable}

/-- The bound variables in no island. -/
def outside (islands : List (Island α)) (pool : Pool α) : List Variable :=
  pool.keys.filter fun v => (islandOf? islands v).isNone && !pool.isFree v

theorem mem_outside_iff {pool : Pool α}
    (islands : partition plan.pool blocks links = .ok plan.islands)
    (shape : Pool.SameShape plan.pool pool) :
    v ∈ outside plan.islands pool ↔
      v ∈ plan.pool.keys ∧ ¬∃ island ∈ plan.islands, v ∈ island.members := by
  rw [outside, List.mem_filter, shape.keys, shape.isFree, Bool.and_eq_true,
    ← isSome_islandOf?_iff, Bool.not_eq_false, Bool.not_eq_true']
  refine and_congr_right fun _ => and_iff_left_of_imp fun none => ?_
  by_contra free
  rw [Bool.not_eq_false] at free
  have inside := Partition.exists_island_of_free islands free
  rw [← isSome_islandOf?_iff, none] at inside
  cases inside

theorem find?_addBound_eq (islands : List (Island α)) (gathered : Session.Gathered α)
    (v : Variable) :
    Assoc.find? v (Session.addBound islands gathered).updated =
      if v ∈ outside islands gathered.pool then some (gathered.pool.valuation v)
      else Assoc.find? v gathered.updated :=
  Assoc.find?_putAll_map gathered.updated _ gathered.pool.valuation v

/-- Every registered variable has a value in the end, unless its island is skipped. -/
theorem isSome_find?_addBound_iff
    (islands : partition plan.pool blocks links = .ok plan.islands)
    (shows : Shows plan all plan.sound gathered)
    (tells : Tells plan methods options warm plan.islands gathered) :
    (Assoc.find? v (Session.addBound plan.islands gathered).updated).isSome = true ↔
      v ∈ plan.pool.keys ∧
        ¬∃ island ∈ plan.islands, plan.faultsOf island.index ≠ [] ∧ v ∈ island.members := by
  rw [find?_addBound_eq]
  constructor
  · intro found
    split at found
    · rename_i bound
      obtain ⟨registered, alone⟩ := (mem_outside_iff islands shows.shape).mp bound
      refine ⟨registered, ?_⟩
      rintro ⟨island, known, -, inside⟩
      exact alone ⟨island, known, inside⟩
    · obtain ⟨island, known, sound, inside⟩ := tells.only v found
      refine ⟨Partition.mem_keys_of_mem islands known inside, ?_⟩
      rintro ⟨other, known', faulty, inside'⟩
      rw [Partition.island_unique islands known' inside' known inside] at faulty
      exact faulty sound
  · rintro ⟨registered, unskipped⟩
    split
    · rfl
    · rename_i inside
      rw [mem_outside_iff islands shows.shape, not_and, not_not] at inside
      obtain ⟨island, known, member⟩ := inside registered
      have sound : plan.faultsOf island.index = [] := by
        by_contra faulty
        exact unskipped ⟨island, known, faulty, member⟩
      obtain ⟨x, found⟩ := shows.reported island (mem_sound_iff.mpr ⟨known, sound⟩) v member
      rw [found]
      rfl

/-- A member of an island that was solved has its value where the island was solved. -/
theorem find?_addBound_of_sound
    (components : Partition.Components plan.pool blocks links plan.islands)
    (islands : partition plan.pool blocks links = .ok plan.islands)
    (shows : Shows plan all plan.sound gathered) {s : Plan.Solved α}
    (evaluates : plan.Evaluates options s) (sound : s.island ∈ plan.sound)
    (position : ∀ v ∈ s.island.unknowns,
      gathered.pool.valuation v = s.system.valuation s.outcome.x v)
    (inside : v ∈ s.island.members) :
    Assoc.find? v (Session.addBound plan.islands gathered).updated =
      some (s.system.valuation s.outcome.x v) := by
  have known := (mem_sound_iff.mp sound).1
  have inner : v ∉ outside plan.islands gathered.pool := by
    rw [mem_outside_iff islands shows.shape]
    exact fun alone => alone.2 ⟨s.island, known, inside⟩
  obtain ⟨x, found⟩ := shows.reported s.island sound v inside
  rw [find?_addBound_eq, if_neg inner, found, shows.faithful v x found]
  refine congrArg some ?_
  by_cases unknown : v ∈ s.island.unknowns
  · exact position v unknown
  · have bound : plan.pool.isFree v = false := by
      rw [Bool.eq_false_iff]
      exact fun free => unknown (Partition.mem_unknowns_of_free islands known inside free)
    have still : gathered.pool.valuation v = plan.pool.valuation v := by
      refine shows.untouched v fun other listed unknown' => ?_
      rw [components.unknowns_free other (mem_sound_iff.mp listed).1 v unknown'] at bound
      cases bound
    rw [still, evaluates.system, Equations.valuation_of_not_mem unknown]

end Values

/-! ### A whole result -/

section Telling

variable {plan : Plan α} {methods : Methods α} {options : Options α} {session session' : Session α}
  {result : Result α} {blocks : List (Block α)} {links : List (List Variable)}

/-- All that a result tells of a plan. -/
structure Told (plan : Plan α) (methods : Methods α) (options : Options α) (warm : Session α)
    (result : Result α) : Prop where
  flaws : result.flaws = plan.flaws
  reports : ∃ reports orphans, result.islands = reports ++ orphans ∧
    List.Forall₂ (Reported plan methods options warm) plan.islands reports ∧
    List.Forall₂ OrphanReport plan.orphans orphans
  /-- every registered variable has a value, unless its island is skipped -/
  known : ∀ v, (result.value? v).isSome = true ↔ v ∈ plan.pool.keys ∧
    ¬∃ island ∈ plan.islands, plan.faultsOf island.index ≠ [] ∧ v ∈ island.members
  /-- an island that was solved is reported where it was solved -/
  value : ∀ island ∈ plan.islands, plan.faultsOf island.index = [] →
    ∃ s, plan.solved methods options island = .ok s ∧
      ∀ v ∈ island.members, result.value? v = some (s.system.valuation s.outcome.x v)

/-- **What every plan tells** once it is carried out. -/
theorem told_of_carryOut (components : Partition.Components plan.pool blocks links plan.islands)
    (islands : partition plan.pool blocks links = .ok plan.islands)
    (done : session.carryOut methods options plan = (session', .ok result)) :
    Told plan methods options session result := by
  obtain ⟨all, gathered, solved, gathering, rfl⟩ := exists_of_carryOut done
  have shows := Shows.gather components islands solved gathering
  have tells := Tells.gather components solved gathering
  obtain ⟨orphans, each, added⟩ := exists_addOrphans plan.orphans gathered
  -- reports alone are added for orphans
  have updated : (Session.addBound plan.islands
      (Session.addOrphans plan.orphans gathered)).updated =
        (Session.addBound plan.islands gathered).updated := by
    rw [added]
    rfl
  refine ⟨rfl, ⟨gathered.reports, orphans, ?_, tells.reports, each⟩, ?_, ?_⟩
  · rw [added]
    rfl
  · intro v
    rw [Result.value?, updated]
    exact isSome_find?_addBound_iff islands shows tells
  · intro island known sound
    obtain ⟨s, member, rfl, position, -⟩ :=
      shows.settled island (mem_sound_iff.mpr ⟨known, sound⟩)
    refine ⟨s, Plan.solved_of_mem solved member, fun v inside => ?_⟩
    rw [Result.value?, updated]
    exact find?_addBound_of_sound components islands shows
      (Plan.evaluates_of_solvedAll solved member).2 (mem_sound_iff.mpr ⟨known, sound⟩) position
      inside

/-- A variable in no island keeps the value of the plan. -/
theorem value?_of_alone (components : Partition.Components plan.pool blocks links plan.islands)
    (islands : partition plan.pool blocks links = .ok plan.islands)
    (done : session.carryOut methods options plan = (session', .ok result)) {v : Variable}
    (registered : v ∈ plan.pool.keys) (alone : ¬∃ island ∈ plan.islands, v ∈ island.members) :
    result.value? v = some (plan.pool.valuation v) := by
  obtain ⟨all, gathered, solved, gathering, rfl⟩ := exists_of_carryOut done
  have shows := Shows.gather components islands solved gathering
  obtain ⟨orphans, -, added⟩ := exists_addOrphans plan.orphans gathered
  have still : gathered.pool.valuation v = plan.pool.valuation v :=
    shows.untouched v fun island sound unknown =>
      alone ⟨island, (mem_sound_iff.mp sound).1, List.mem_append_left _ unknown⟩
  have bound : v ∈ outside plan.islands gathered.pool :=
    (mem_outside_iff islands shows.shape).mpr ⟨registered, alone⟩
  rw [Result.value?, added, find?_addBound_eq, if_pos bound, still]

end Telling

/-! ### A solve -/

/-- The pool of a drawing with what a session remembers. -/
def Session.seeded (session : Session α) (sketch : Sketch α) : Pool α :=
  ((Pool.ofSketch sketch).seed (session.prune (Pool.ofSketch sketch)).cache).1

omit [Scalar α] in
theorem Session.sameShape_seeded (session : Session α) (sketch : Sketch α) :
    Pool.SameShape (Pool.ofSketch sketch) (session.seeded sketch) :=
  Pool.sameShape_seed _ _

/-- The flaws of a drawing are shared out between the reports. -/
structure Result.Blames (result : Result α) (sketch : Sketch α) (pool : Pool α) : Prop where
  flaws : result.flaws = sketch.flaws
  /-- every flaw is reported once -/
  shared : (result.islands.flatMap (·.flaws)).Perm result.flaws
  /-- what has a flaw is skipped, and nothing else is -/
  skipped : ∀ report ∈ result.islands, report.status = .skipped ↔ report.flaws ≠ []
  /-- all free variables that a flaw touches lie where it is reported -/
  touched : ∀ report ∈ result.islands, ∀ flaw ∈ report.flaws,
    ∀ v ∈ sketch.closure pool flaw.references, pool.isFree v = true → v ∈ report.unknowns
  /-- no variable lies in two reports -/
  apart : result.islands.Pairwise fun report later => report.unknowns.Disjoint later.unknowns

/-- The variable lies in a report that is skipped. -/
def Result.Skips (result : Result α) (v : Variable) : Prop :=
  ∃ report ∈ result.islands, report.status = .skipped ∧ v ∈ report.unknowns

section Blaming

variable {sketch : Sketch α} {start : Pool α} {plan : Plan α} {methods : Methods α}
  {options : Options α} {warm : Session α} {result : Result α} {blocks : List (Block α)}
  {links : List (List Variable)}

theorem OrphanReport.flaws {flaw : Flaw α} {report : Report α} (orphan : OrphanReport flaw report) :
    report.flaws = [flaw] ∧ report.status = .skipped ∧ report.unknowns = [] := by
  obtain ⟨index, rfl⟩ := orphan
  exact ⟨rfl, rfl, rfl⟩

namespace Told

variable {report : Report α} {island : Island α}

/-- A report is that of an island or that of an orphan. -/
theorem report_cases (told : Told plan methods options warm result)
    (member : report ∈ result.islands) :
    (∃ island ∈ plan.islands, Reported plan methods options warm island report) ∨
      ∃ flaw ∈ plan.orphans, OrphanReport flaw report := by
  obtain ⟨reports, orphans, islands, each, alone⟩ := told.reports
  rw [islands, List.mem_append] at member
  exact member.imp (exists_left_of_forall₂ each) (exists_left_of_forall₂ alone)

/-- Every island is reported. -/
theorem exists_report (told : Told plan methods options warm result)
    (known : island ∈ plan.islands) :
    ∃ report ∈ result.islands, Reported plan methods options warm island report := by
  obtain ⟨reports, orphans, islands, each, -⟩ := told.reports
  obtain ⟨report, placed, reported⟩ := exists_right_of_forall₂ each known
  exact ⟨report, islands ▸ List.mem_append_left _ placed, reported⟩

/-- Every orphan is reported. -/
theorem exists_orphan_report (told : Told plan methods options warm result) {flaw : Flaw α}
    (known : flaw ∈ plan.orphans) : ∃ report ∈ result.islands, OrphanReport flaw report := by
  obtain ⟨reports, orphans, islands, -, alone⟩ := told.reports
  obtain ⟨report, placed, orphan⟩ := exists_right_of_forall₂ alone known
  exact ⟨report, islands ▸ List.mem_append_right _ placed, orphan⟩

/-- The report of an island stands at its number. -/
theorem report_at (told : Told plan methods options warm result)
    (components : Partition.Components plan.pool blocks links plan.islands)
    (known : island ∈ plan.islands) :
    ∃ report, result.islands[island.index]? = some report ∧
      Reported plan methods options warm island report := by
  obtain ⟨reports, orphans, all, each, -⟩ := told.reports
  obtain ⟨i, inside, rfl⟩ := List.getElem_of_mem known
  have inside' : i < reports.length := each.length_eq ▸ inside
  refine ⟨reports[i], ?_, each.get inside inside'⟩
  rw [components.index_eq i inside, all, List.getElem?_append_left inside',
    List.getElem?_eq_getElem inside']

/-- Every flaw is reported once. -/
theorem shared (told : Told plan methods options warm result)
    (made : Plan.Made sketch start plan blocks)
    (components : Partition.Components plan.pool blocks links plan.islands) :
    (result.islands.flatMap (·.flaws)).Perm sketch.flaws := by
  obtain ⟨reports, orphans, islands, each, alone⟩ := told.reports
  have placed : plan.islands.map (fun island => plan.faultsOf island.index) =
      reports.map (·.flaws) :=
    map_eq_of_forall₂ (each.imp fun _ _ reported => reported.flaws.symm)
  have homeless : plan.orphans.map (fun flaw => [flaw]) = orphans.map (·.flaws) :=
    map_eq_of_forall₂ (alone.imp fun _ _ orphan => orphan.flaws.1.symm)
  rw [islands, List.flatMap_append, List.flatMap_def, List.flatMap_def, ← placed, ← homeless,
    ← List.flatMap_def, ← List.flatMap_def, List.flatMap_singleton']
  exact made.faults_perm components

/-- No variable lies in two reports. -/
theorem apart (told : Told plan methods options warm result)
    (made : Plan.Made sketch start plan blocks)
    (components : Partition.Components plan.pool blocks links plan.islands) :
    result.islands.Pairwise fun report later => report.unknowns.Disjoint later.unknowns := by
  obtain ⟨reports, orphans, islands, each, alone⟩ := told.reports
  have members : plan.islands.map Island.members = reports.map (·.unknowns) :=
    map_eq_of_forall₂ (each.imp fun _ _ reported => reported.unknowns.symm)
  have apart : plan.islands.Pairwise fun island later =>
      island.members.Disjoint later.members := by
    refine (nodup_islands components).pairwise_of_forall_ne fun island known other known' ne => ?_
    intro v inside inside'
    exact ne (Partition.island_unique made.islands known inside known' inside')
  have empty : ∀ report ∈ orphans, report.unknowns = [] := by
    intro report homeless
    obtain ⟨flaw, -, orphan⟩ := exists_left_of_forall₂ alone homeless
    exact orphan.flaws.2.2
  rw [← List.pairwise_map, members, List.pairwise_map] at apart
  rw [islands, List.pairwise_append]
  refine ⟨apart, List.pairwise_of_forall_mem_list fun report homeless _ _ => ?_,
    fun _ _ report homeless => ?_⟩
  · rw [empty report homeless]
    exact List.disjoint_nil_left _
  · rw [empty report homeless]
    exact List.disjoint_nil_right _

/-- **What is told of a plan shares the flaws out.** -/
theorem blames (told : Told plan methods options warm result)
    (made : Plan.Made sketch start plan blocks)
    (components : Partition.Components plan.pool blocks links plan.islands) :
    result.Blames sketch plan.pool where
  flaws := told.flaws.trans made.flaws
  shared := (told.shared made components).trans (told.flaws.trans made.flaws ▸ .refl _)
  skipped := by
    intro report member
    rcases told.report_cases member with ⟨island, -, reported⟩ | ⟨flaw, -, orphan⟩
    · rw [reported.skipped_iff, reported.flaws]
    · obtain ⟨single, skipped, -⟩ := orphan.flaws
      exact iff_of_true skipped (by simp [single])
  touched := by
    intro report member flaw listed v touches free
    rcases told.report_cases member with ⟨island, known, reported⟩ | ⟨other, known, orphan⟩
    · rw [reported.flaws] at listed
      rw [reported.unknowns]
      exact List.mem_append_left _ (made.touched_subset components known listed touches free)
    · rw [orphan.flaws.1, List.mem_singleton] at listed
      rw [listed] at touches
      rw [made.bound_of_orphan known touches] at free
      cases free
  apart := told.apart made components

/-- A member of a skipped island has no value. -/
theorem value?_of_faulty (told : Told plan methods options warm result)
    (known : island ∈ plan.islands) (faulty : plan.faultsOf island.index ≠ []) {v : Variable}
    (inside : v ∈ island.members) : result.value? v = none := by
  rw [← Option.not_isSome_iff_eq_none, told.known]
  exact fun held => held.2 ⟨island, known, faulty, inside⟩

theorem value?_of_not_mem_keys (told : Told plan methods options warm result) {v : Variable}
    (missing : v ∉ plan.pool.keys) : result.value? v = none := by
  rw [← Option.not_isSome_iff_eq_none, told.known]
  exact fun held => missing held.1

/-- A variable is skipped with its island. -/
theorem skips_iff (told : Told plan methods options warm result) {v : Variable} :
    result.Skips v ↔
      ∃ island ∈ plan.islands, plan.faultsOf island.index ≠ [] ∧ v ∈ island.members := by
  constructor
  · rintro ⟨report, member, skipped, inside⟩
    rcases told.report_cases member with ⟨island, known, reported⟩ | ⟨flaw, -, orphan⟩
    · rw [reported.skipped_iff] at skipped
      rw [reported.unknowns] at inside
      exact ⟨island, known, skipped, inside⟩
    · rw [orphan.flaws.2.2] at inside
      cases inside
  · rintro ⟨island, known, faulty, inside⟩
    obtain ⟨report, placed, reported⟩ := told.exists_report known
    exact ⟨report, placed, reported.skipped_iff.mpr faulty, by rwa [reported.unknowns]⟩

end Told

end Blaming

section Solving

variable {ν : Type} [Ordered ν] {numerals : Numerals ν α} {session session' : Session α}
  {methods : Methods α} {options : Options ν} {sketch : Sketch α} {drag : Option (Drag α)}
  {result : Result α}

/-- A solve that returns has planned for the drawing and carried the plan out. -/
theorem exists_plan_of_solve
    (done : session.solve numerals methods options sketch drag = (session', .ok result)) :
    ∃ plan blocks, Plan.make sketch (session.seeded sketch) drag = .ok plan ∧
      Plan.Made sketch (session.seeded sketch) plan blocks ∧
      Partition.Components plan.pool blocks (sketch.flaws.map (Plan.touched sketch plan.pool))
        plan.islands ∧
      (session.prune (Pool.ofSketch sketch)).carryOut methods (options.map numerals.value) plan =
        (session', .ok result) := by
  obtain ⟨plan, make, carried⟩ := Session.exists_of_solve done
  obtain ⟨blocks, made⟩ := Plan.exists_made make
  exact ⟨plan, blocks, make, made, made.components (session.sameShape_seeded sketch), carried⟩

/-- **A solve that returns** has planned for the drawing, and its result tells of the plan. -/
theorem exists_told_of_solve
    (done : session.solve numerals methods options sketch drag = (session', .ok result)) :
    ∃ plan blocks, Plan.make sketch (session.seeded sketch) drag = .ok plan ∧
      Plan.Made sketch (session.seeded sketch) plan blocks ∧
      Partition.Components plan.pool blocks (sketch.flaws.map (Plan.touched sketch plan.pool))
        plan.islands ∧
      Told plan methods (options.map numerals.value) (session.prune (Pool.ofSketch sketch))
        result := by
  obtain ⟨plan, blocks, make, made, components, carried⟩ := exists_plan_of_solve done
  exact ⟨plan, blocks, make, made, components, told_of_carryOut components made.islands carried⟩

/-- **Every solve that returns shares the flaws out between its reports.** -/
theorem blames_of_solve
    (done : session.solve numerals methods options sketch drag = (session', .ok result)) :
    ∃ pool blocks,
      Plan.compiled sketch (session.seeded sketch) sketch.flaws = .ok (pool, blocks) ∧
        result.Blames sketch pool := by
  obtain ⟨plan, blocks, -, made, components, told⟩ := exists_told_of_solve done
  exact ⟨plan.pool, blocks, made.compiled, told.blames made components⟩

end Solving

end PlaneSketch
