import PlaneSketch.Proofs.Descent
import PlaneSketch.Proofs.Partition
import PlaneSketch.Session

/-!
What the islands of one solve leave behind.

Islands are solved apart, each over its own free variables, and written back one after the other.
`Shows` says what holds once some islands are taken in: the pool shows for these islands the
positions where they were evaluated, for everything else what it showed before, and the values
reported are those of the pool.

* `Shows.take` and `Shows.gather`: taking in one more island keeps this up, and so do all islands.
* `exists_settled`: in the end every registered variable is reported, at its value in a pool
  that all islands agree with.
-/

namespace PlaneSketch

variable {α : Type} [Scalar α]

/-! ### Equations and what they read -/

namespace Equations

variable {blocks blocks' : List (Block α)} {free : List Variable}
  {constants constants' : Valuation α} {v : Variable}

omit [Scalar α] in
theorem column?_eq_none_iff {system : Equations α} : system.column? v = none ↔ v ∉ system.free := by
  rw [column?, List.findIdx?_eq_none_iff]
  constructor
  · intro absent member
    simpa using absent v member
  · intro other u member
    simpa using fun same : u = v => other (same ▸ member)

/-- What is solved for stands where the position says. -/
theorem map_valuation (distinct : free.Nodup) {x : List α} (wide : x.length = free.length) :
    free.map ((Equations.mk blocks free constants).valuation x) = x := by
  refine List.ext_getElem (by simp [wide]) fun i inside inside' => ?_
  have listed : i < free.length := by simpa using inside
  have column : (Equations.mk blocks free constants).column? free[i] = some i := by
    rw [column?, List.findIdx?_eq_some_iff_getElem]
    refine ⟨listed, by simp, fun j before => ?_⟩
    simpa using fun same => absurd (distinct.getElem_inj_iff.mp same) before.ne
  rw [List.getElem_map, valuation, column]
  simp [inside']

/-- What is not solved for has its constant. -/
theorem valuation_of_not_mem (other : v ∉ free) (x : List α) :
    (Equations.mk blocks free constants).valuation x v = constants v := by
  rw [valuation, column?_eq_none_iff.mpr other]

/-- What is solved for does not depend on the constants. -/
theorem valuation_of_mem (member : v ∈ free) (x : List α) :
    (Equations.mk blocks free constants).valuation x v =
      (Equations.mk blocks' free constants').valuation x v := by
  have found : (Equations.mk blocks free constants).column? v ≠ none :=
    fun none => column?_eq_none_iff.mp none member
  obtain ⟨i, found⟩ := Option.ne_none_iff_exists'.mp found
  have found' : (Equations.mk blocks' free constants').column? v = some i := found
  rw [valuation, valuation, found, found']

end Equations

theorem Radius.size_congr {v w : Valuation α} (r : Radius) (same : ∀ u ∈ r.slots, v u = w u) :
    r.size v = r.size w := by
  cases r with
  | circle c => exact same ⟨c, .r⟩ (by simp [slots])
  | arc start center =>
    simp only [slots, coordinates, List.flatMap_cons, List.flatMap_nil, List.mem_append,
      List.mem_cons, List.not_mem_nil, or_false] at same
    simp [size, Valuation.point, same]

/-- Residuals depend on the values of the slots alone. -/
theorem Relation.residual_congr {v w : Valuation α} (relation : Relation α)
    (same : ∀ u ∈ relation.slots, v u = w u) : relation.residual v = relation.residual w := by
  cases relation with
  | radius r size => simp only [residual, r.size_congr same]
  | radiusRatio r s ratio =>
    have first := r.size_congr fun u slot => same u (List.mem_append_left _ slot)
    have second := s.size_congr fun u slot => same u (List.mem_append_right _ slot)
    simp only [residual, first, second]
  | _ =>
    simp only [slots, coordinates, List.flatMap_cons, List.flatMap_nil, List.mem_append,
      List.mem_cons, List.not_mem_nil, or_false] at same
    simp [residual, Valuation.point, same]

theorem Radius.gradient_congr {v w : Valuation α} (r : Radius) (same : ∀ u ∈ r.slots, v u = w u) :
    r.gradient v = r.gradient w := by
  cases r with
  | circle c => rfl
  | arc start center =>
    simp only [slots, coordinates, List.flatMap_cons, List.flatMap_nil, List.mem_append,
      List.mem_cons, List.not_mem_nil, or_false] at same
    simp [gradient, Valuation.point, same]

/-- So do the partial derivatives. -/
theorem Relation.gradient_congr {v w : Valuation α} (relation : Relation α)
    (same : ∀ u ∈ relation.slots, v u = w u) : relation.gradient v = relation.gradient w := by
  cases relation with
  | radius r size => simp only [gradient, r.gradient_congr same]
  | radiusRatio r s ratio =>
    have first := r.gradient_congr fun u slot => same u (List.mem_append_left _ slot)
    have second := s.gradient_congr fun u slot => same u (List.mem_append_right _ slot)
    simp only [gradient, first, second]
  | _ =>
    simp only [slots, coordinates, List.flatMap_cons, List.flatMap_nil, List.mem_append,
      List.mem_cons, List.not_mem_nil, or_false] at same
    simp [gradient, Valuation.point, same]

theorem Block.residual_congr {v w : Valuation α} (block : Block α)
    (same : ∀ u ∈ block.unknowns, v u = w u) : block.residual v = block.residual w :=
  block.relation.residual_congr fun u slot => same u (mem_firstOccurrences.mpr slot)

theorem Block.jacobian_congr {v w : Valuation α} (block : Block α)
    (same : ∀ u ∈ block.unknowns, v u = w u) (columns : List Variable) :
    block.jacobian v columns = block.jacobian w columns := by
  rw [jacobian, jacobian,
    block.relation.gradient_congr fun u slot => same u (mem_firstOccurrences.mpr slot)]

/-! ### One island -/

/-- A diagnosis calls an island converged exactly when its outcome is. -/
theorem isConverged_of_diagnose {methods : Methods α} {options : Options α} {pool : Pool α}
    {system : Equations α} {outcome : Outcome α} {diagnosis : Diagnosis}
    (done : diagnose methods options pool system outcome = .ok diagnosis) :
    diagnosis.status.isConverged = outcome.converged := by
  unfold diagnose at done
  dsimp only at done
  split at done
  · obtain ⟨rank, -, rest⟩ := bind_eq_ok_iff.mp done
    obtain ⟨dependent, -, rest⟩ := bind_eq_ok_iff.mp rest
    cases converged : outcome.converged with
    | true =>
      rw [converged, if_pos rfl] at rest
      cases rest
      dsimp only
      split <;> rfl
    | false =>
      rw [converged, if_neg Bool.false_ne_true] at rest
      cases rest
      rfl
  · cases done

/-- The equations of an island, and where its free variables stand. -/
theorem Equations.eq_of_ofIsland {pool : Pool α} {island : Island α} {system : Equations α}
    {start : List α} (done : ofIsland pool island = .ok (system, start)) :
    system = ⟨island.blocks, island.unknowns, pool.valuation⟩ ∧
      start = island.unknowns.map pool.valuation := by
  simp only [ofIsland, bind_eq_ok_iff, pure, Except.pure] at done
  obtain ⟨_, -, start', started, made⟩ := done
  cases made
  refine ⟨rfl, ?_⟩
  rw [← List.map_id start]
  refine (map_eq_of_forall₂ ((mapM_eq_ok_iff.mp started).imp fun v value found => ?_)).symm
  rw [Pool.valuation, found]
  rfl

namespace Plan

variable {plan : Plan α} {methods : Methods α} {options : Options α} {island : Island α}
  {s : Solved α}

/-- The equations are those of the island, and the outcome is their evaluation at a position with
an entry for each free variable. -/
structure Evaluates (plan : Plan α) (options : Options α) (s : Solved α) : Prop where
  system : s.system = ⟨s.island.blocks, s.island.unknowns, plan.pool.valuation⟩
  outcome : ∃ (x : List α) (steps : Nat), x.length = s.island.unknowns.length ∧
    s.outcome = s.system.outcomeAt (plan.optionsFor options s.island.index) x steps

/-- The equations of an island in a plan. -/
def system (plan : Plan α) (island : Island α) : Equations α :=
  ⟨island.blocks, island.unknowns, plan.pool.valuation⟩

/-- An island is solved from where its free variables stand in the plan. -/
theorem exists_of_solved (done : plan.solved methods options island = .ok s) :
    s.island = island ∧ s.system = plan.system island ∧
      ((plan.system island).solve methods (plan.optionsFor options island.index)
        (plan.pull? options (plan.system island) island.index)
        (island.unknowns.map plan.pool.valuation)).outcome = .ok s.outcome := by
  simp only [solved, trial, bind_eq_ok_iff, pure, Except.pure] at done
  obtain ⟨trial, ⟨⟨system, start⟩, made, tried⟩, outcome, solved, ended⟩ := done
  cases tried
  cases ended
  obtain ⟨rfl, rfl⟩ := Equations.eq_of_ofIsland made
  exact ⟨rfl, rfl, solved⟩

/-- An island whose variables are registered ends as its attempt does. -/
theorem solved_of_registered {values : List (Variable × α)} {x : List α} {outcome : Outcome α}
    (registered : islandValues plan.pool island = .ok values)
    (start : island.unknowns.mapM plan.pool.value = .ok x)
    (ended : ((plan.system island).solve methods (plan.optionsFor options island.index)
      (plan.pull? options (plan.system island) island.index) x).outcome = .ok outcome) :
    plan.solved methods options island = .ok ⟨island, plan.system island, outcome⟩ := by
  rw [system] at ended
  simp only [solved, trial, Equations.ofIsland, registered, start, bind, Except.bind, pure,
    Except.pure, ended, system]

theorem evaluates_of_solved (done : plan.solved methods options island = .ok s) :
    s.island = island ∧ plan.Evaluates options s := by
  obtain ⟨rfl, system, solved⟩ := exists_of_solved done
  obtain ⟨x, steps, length, outcome⟩ := Equations.outcome_of_solve solved
  exact ⟨rfl, system, x, steps, length.trans (List.length_map _), system ▸ outcome⟩

omit [Scalar α] in
/-- Without a drag no island is left where it is. -/
theorem optionsFor_of_undragged (undragged : plan.dragging = false) (options : Options α)
    (index : Nat) : plan.optionsFor options index = options := by
  simp [optionsFor, isFrozen, undragged]

theorem pull?_of_target? {index : Nat} (unpulled : plan.target? index = none)
    (system : Equations α) : plan.pull? options system index = none := by
  rw [pull?, unpulled]

omit [Scalar α] in
theorem tolerance_optionsFor (plan : Plan α) (options : Options α) (index : Nat) :
    (plan.optionsFor options index).tolerance = options.tolerance := by
  rw [Plan.optionsFor]
  split <;> rfl

/-- The settings of an island differ in the number of steps at most, which no outcome shows. -/
theorem outcomeAt_optionsFor (plan : Plan α) (options : Options α) (index : Nat)
    (system : Equations α) :
    system.outcomeAt (plan.optionsFor options index) = system.outcomeAt options := by
  funext x steps
  simp only [Equations.outcomeAt, tolerance_optionsFor]

theorem evaluates_of_solvedAll {all : List (Solved α)}
    (done : plan.solvedAll methods options = .ok all) (member : s ∈ all) :
    s.island ∈ plan.islands ∧ plan.Evaluates options s := by
  obtain ⟨island, sound, solved⟩ := mem_of_mapM_eq_ok done member
  obtain ⟨rfl, evaluates⟩ := evaluates_of_solved solved
  exact ⟨(List.mem_filter.mp sound).1, evaluates⟩

end Plan

/-! ### One island after the other -/

section Gathering

variable {plan : Plan α} {methods : Methods α} {options : Options α} {warm : Session α}
  {all : List (Plan.Solved α)} {taken : List (Island α)} {gathered : Session.Gathered α}
  {s : Plan.Solved α} {diagnosis : Diagnosis} {blocks : List (Block α)}
  {links : List (List Variable)}

/-- The pool shows the position of every island taken in, and what it showed before of everything
else. The values reported are those of the pool. -/
structure Shows (plan : Plan α) (all : List (Plan.Solved α)) (taken : List (Island α))
    (gathered : Session.Gathered α) : Prop where
  shape : Pool.SameShape plan.pool gathered.pool
  /-- nothing else has moved -/
  untouched : ∀ v, (∀ island ∈ taken, v ∉ island.unknowns) →
    gathered.pool.valuation v = plan.pool.valuation v
  /-- each island stands where it was evaluated -/
  settled : ∀ island ∈ taken, ∃ s ∈ all, s.island = island ∧
    (∀ v ∈ island.unknowns, gathered.pool.valuation v = s.system.valuation s.outcome.x v) ∧
    ∃ report ∈ gathered.reports, report.status.isConverged = s.outcome.converged
  /-- no member of an island is left out -/
  reported : ∀ island ∈ taken, ∀ v ∈ island.members, ∃ value,
    Assoc.find? v gathered.updated = some value
  /-- a value is reported as the pool has it -/
  faithful : ∀ v value, Assoc.find? v gathered.updated = some value →
    value = gathered.pool.valuation v

theorem Shows.start (plan : Plan α) (all : List (Plan.Solved α)) (session : Session α) :
    Shows plan all [] ⟨plan.pool, session, [], []⟩ where
  shape := .refl plan.pool
  untouched _ _ := rfl
  settled _ member := by cases member
  reported _ member := by cases member
  faithful _ _ found := by cases found

/-- The pool once an island is taken in. -/
theorem valuation_take (shape : Pool.SameShape plan.pool gathered.pool)
    (evaluates : plan.Evaluates options s) (distinct : s.island.unknowns.Nodup)
    (free : ∀ v ∈ s.island.unknowns, plan.pool.isFree v = true) (v : Variable) :
    (gathered.take warm s diagnosis).pool.valuation v =
      if v ∈ s.island.unknowns then s.system.valuation s.outcome.x v
      else gathered.pool.valuation v := by
  obtain ⟨x, steps, length, outcome⟩ := evaluates.outcome
  have position : s.outcome.x = x := by rw [outcome]; rfl
  have free' : ∀ v ∈ s.island.unknowns, gathered.pool.isFree v = true := by
    intro v member
    rw [shape.isFree, free v member]
  have scattered := Pool.valuation_scatter free' distinct (position ▸ length) s.island.blocks
  have pool : (gathered.take warm s diagnosis).pool =
      (gathered.pool.scatter s.island.unknowns s.outcome.x).1 := rfl
  rw [pool, scattered, evaluates.system]
  split
  · rename_i member
    exact Equations.valuation_of_mem member s.outcome.x
  · rename_i other
    exact Equations.valuation_of_not_mem other s.outcome.x

theorem find?_take (v : Variable) :
    Assoc.find? v (gathered.take warm s diagnosis).updated =
      if v ∈ s.island.members then some ((gathered.take warm s diagnosis).pool.valuation v)
      else Assoc.find? v gathered.updated :=
  Assoc.find?_putAll_map gathered.updated s.island.members _ v

theorem mem_reports_take {report : Report α} (member : report ∈ gathered.reports) :
    report ∈ (gathered.take warm s diagnosis).reports :=
  List.mem_append_left _ member

/-- **Taking in one more island** leaves those taken in before where they are. -/
theorem Shows.take (shows : Shows plan all taken gathered)
    (components : Partition.Components plan.pool blocks links plan.islands)
    (within : ∀ island ∈ taken, island ∈ plan.islands) (listed : s ∈ all)
    (known : s.island ∈ plan.islands) (evaluates : plan.Evaluates options s)
    (distinct : s.island.unknowns.Nodup) (fresh : s.island ∉ taken)
    (diagnosed : diagnosis.status.isConverged = s.outcome.converged) :
    Shows plan all (taken ++ [s.island]) (gathered.take warm s diagnosis) := by
  have free := components.unknowns_free s.island known
  have moved : ∀ v, (gathered.take warm s diagnosis).pool.valuation v =
      if v ∈ s.island.unknowns then s.system.valuation s.outcome.x v
      else gathered.pool.valuation v :=
    valuation_take shows.shape evaluates distinct free
  -- an island taken in before has no variable of this one
  have apart : ∀ island ∈ taken, ∀ v ∈ island.unknowns, v ∉ s.island.unknowns := by
    intro island member v unknown unknown'
    obtain ⟨_, -, unique⟩ := components.free_once v (free v unknown')
    have same := (unique island ⟨within island member, unknown⟩).trans
      (unique s.island ⟨known, unknown'⟩).symm
    exact fresh (same ▸ member)
  refine ⟨shows.shape.trans (Pool.sameShape_scatter _ _ _), ?_, ?_, ?_, ?_⟩
  · intro v untouched
    rw [moved, if_neg (untouched s.island (by simp))]
    exact shows.untouched v fun island member => untouched island (List.mem_append_left _ member)
  · intro island member
    rcases List.mem_append.mp member with before | now
    · obtain ⟨s', listed', same, position, report, reported, status⟩ := shows.settled island before
      refine ⟨s', listed', same, fun v unknown => ?_, report, mem_reports_take reported, status⟩
      rw [moved, if_neg (apart island before v unknown)]
      exact position v unknown
    · obtain rfl := List.mem_singleton.mp now
      refine ⟨s, listed, rfl, fun v unknown => ?_, _, List.mem_append_right _ List.mem_cons_self,
        diagnosed⟩
      rw [moved, if_pos unknown]
  · intro island member v inside
    rw [find?_take]
    split
    · exact ⟨_, rfl⟩
    · rename_i other
      rcases List.mem_append.mp member with before | now
      · exact shows.reported island before v inside
      · exact absurd (List.mem_singleton.mp now ▸ inside) other
  · intro v value found
    rw [find?_take] at found
    split at found
    · exact (Option.some.inj found).symm
    · rename_i other
      rw [moved, if_neg fun unknown => other (List.mem_append_left _ unknown)]
      exact shows.faithful v value found

omit [Scalar α] in
theorem faultsOf_eq_nil (faultless : plan.faults = []) (index : Nat) :
    plan.faultsOf index = [] := by
  rw [Plan.faultsOf, faultless]
  rfl

omit [Scalar α] in
/-- Islands are known by their numbers. -/
theorem island_eq_of_index_eq {islands : List (Island α)} {pool : Pool α}
    (components : Partition.Components pool blocks links islands)
    {island other : Island α} (member : island ∈ islands) (member' : other ∈ islands)
    (same : island.index = other.index) : island = other := by
  obtain ⟨i, hi, rfl⟩ := List.getElem_of_mem member
  obtain ⟨j, hj, rfl⟩ := List.getElem_of_mem member'
  rw [components.index_eq i hi, components.index_eq j hj] at same
  subst same
  rfl

omit [Scalar α] in
/-- No number is given twice. -/
theorem nodup_indices {islands : List (Island α)} {pool : Pool α}
    (components : Partition.Components pool blocks links islands) :
    (islands.map (·.index)).Nodup := by
  rw [List.nodup_iff_injective_getElem]
  intro i j same
  have boundI : i < islands.length := by simpa using i.2
  have boundJ : j < islands.length := by simpa using j.2
  simp only [List.getElem_map, components.index_eq _ boundI, components.index_eq _ boundJ] at same
  exact Fin.ext same

omit [Scalar α] in
/-- No island is listed twice. -/
theorem nodup_islands {islands : List (Island α)} {pool : Pool α}
    (components : Partition.Components pool blocks links islands) : islands.Nodup :=
  (nodup_indices components).of_map _

theorem Session.gather_cons_of_faulty {island : Island α} {rest : List (Island α)}
    (faulty : plan.faultsOf island.index ≠ []) :
    Session.gather methods options plan warm all (island :: rest) gathered =
      Session.gather methods options plan warm all rest
        (gathered.skip island (plan.faultsOf island.index)) := by
  rw [Session.gather, if_neg (by simpa using faulty)]

theorem Session.gather_cons_of_sound {island : Island α} {rest : List (Island α)}
    (sound : plan.faultsOf island.index = [])
    (found : all.find? (fun s => s.island.index = island.index) = some s)
    (diagnosed : diagnose methods options gathered.pool s.system s.outcome = .ok diagnosis) :
    Session.gather methods options plan warm all (island :: rest) gathered =
      Session.gather methods options plan warm all rest (gathered.take warm s diagnosis) := by
  rw [Session.gather, if_pos (by rw [sound]; rfl), found]
  simp only [diagnosed]

theorem Session.gather_cons_of_undiagnosed {island : Island α} {rest : List (Island α)}
    {failure : Failure} (sound : plan.faultsOf island.index = [])
    (found : all.find? (fun s => s.island.index = island.index) = some s)
    (undiagnosed : diagnose methods options gathered.pool s.system s.outcome = .error failure) :
    Session.gather methods options plan warm all (island :: rest) gathered =
      (gathered, some failure) := by
  rw [Session.gather, if_pos (by rw [sound]; rfl), found]
  simp only [undiagnosed]

/-- How gathering stops: with no island left, or at one whose diagnosis fails. -/
inductive Session.Stops (methods : Methods α) (options : Options α) (all : List (Plan.Solved α))
    (pool : Pool α) : List (Island α) → Option Failure → Prop
  | done : Stops methods options all pool [] none
  | undiagnosed {s : Plan.Solved α} {rest : List (Island α)} {failure : Failure} : s ∈ all →
      diagnose methods options pool s.system s.outcome = .error failure →
      Stops methods options all pool (s.island :: rest) (some failure)

/-- **How far gathering gets**: whatever holds after each island, skipped or taken in, holds of
those gathered, which are all of them or those before one whose diagnosis fails. -/
theorem Session.exists_gathered (P : List (Island α) → Session.Gathered α → Prop)
    {final : Session.Gathered α} {stop : Option Failure}
    (components : Partition.Components plan.pool blocks links plan.islands)
    (solved : plan.solvedAll methods options = .ok all)
    (skip : ∀ {taken gathered island}, P taken gathered → island ∈ plan.islands →
      plan.faultsOf island.index ≠ [] →
      P (taken ++ [island]) (gathered.skip island (plan.faultsOf island.index)))
    (take : ∀ {taken gathered s diagnosis}, P taken gathered →
      (∀ island ∈ taken, island ∈ plan.islands) → s ∈ all → s.island ∈ plan.islands →
      s.island ∉ taken → plan.faultsOf s.island.index = [] →
      diagnose methods options gathered.pool s.system s.outcome = .ok diagnosis →
      P (taken ++ [s.island]) (gathered.take warm s diagnosis))
    (start : P [] gathered)
    (done : Session.gather methods options plan warm all plan.islands gathered = (final, stop)) :
    ∃ taken rest, plan.islands = taken ++ rest ∧ P taken final ∧
      Session.Stops methods options all final.pool rest stop := by
  -- along the islands that are left, with those taken in so far
  suffices run : ∀ {rest taken gathered}, P taken gathered → plan.islands = taken ++ rest →
      Session.gather methods options plan warm all rest gathered = (final, stop) →
      ∃ taken rest, plan.islands = taken ++ rest ∧ P taken final ∧
        Session.Stops methods options all final.pool rest stop from run start rfl done
  intro rest
  induction rest with
  | nil =>
    intro taken gathered holds order done
    cases done
    exact ⟨taken, [], order, holds, .done⟩
  | cons island rest ih =>
    intro taken gathered holds order done
    have member : island ∈ plan.islands := by simp [order]
    have order' : plan.islands = (taken ++ [island]) ++ rest := by simp [order]
    rw [Session.gather] at done
    split at done
    · rename_i sound
      rw [List.isEmpty_iff] at sound
      split at done
      · -- each island to be solved has an outcome
        rename_i missing
        obtain ⟨s, listed, made⟩ := outcome_of_mapM_eq_ok solved
          (List.mem_filter.mpr ⟨member, List.isEmpty_iff.mpr sound⟩)
        obtain ⟨rfl, -⟩ := Plan.evaluates_of_solved made
        have absent := List.find?_eq_none.mp missing s listed
        simp at absent
      · rename_i s found
        have listed := List.mem_of_find?_eq_some found
        have known := (Plan.evaluates_of_solvedAll solved listed).1
        obtain rfl : s.island = island :=
          island_eq_of_index_eq components known member (by simpa using List.find?_some found)
        have once := nodup_islands components
        rw [order, List.nodup_append] at once
        split at done
        · rename_i undiagnosed
          cases done
          exact ⟨taken, _, order, holds, .undiagnosed listed undiagnosed⟩
        · rename_i diagnosis diagnosed
          refine ih (take holds (fun island before => ?_) listed known (fun before => ?_) sound
            diagnosed) order' done
          · rw [order]
            exact List.mem_append_left _ before
          · exact once.2.2 _ before _ List.mem_cons_self rfl
    · rename_i faulty
      exact ih (skip holds member (by simpa using faulty)) order' done

/-- **What one island preserves, all islands preserve**, when no diagnosis fails. -/
theorem Session.gather_induction (P : List (Island α) → Session.Gathered α → Prop)
    {final : Session.Gathered α}
    (components : Partition.Components plan.pool blocks links plan.islands)
    (solved : plan.solvedAll methods options = .ok all)
    (skip : ∀ {taken gathered island}, P taken gathered → island ∈ plan.islands →
      plan.faultsOf island.index ≠ [] →
      P (taken ++ [island]) (gathered.skip island (plan.faultsOf island.index)))
    (take : ∀ {taken gathered s diagnosis}, P taken gathered →
      (∀ island ∈ taken, island ∈ plan.islands) → s ∈ all → s.island ∈ plan.islands →
      s.island ∉ taken → plan.faultsOf s.island.index = [] →
      diagnose methods options gathered.pool s.system s.outcome = .ok diagnosis →
      P (taken ++ [s.island]) (gathered.take warm s diagnosis))
    (start : P [] gathered)
    (done : Session.gather methods options plan warm all plan.islands gathered = (final, none)) :
    P plan.islands final := by
  obtain ⟨taken, rest, order, holds, stops⟩ :=
    Session.exists_gathered P components solved skip take start done
  cases stops
  rwa [order, List.append_nil]

/-- An island that is not solved only adds its report. -/
theorem Shows.skip (shows : Shows plan all taken gathered) (island : Island α)
    (flaws : List (Flaw α)) : Shows plan all taken (gathered.skip island flaws) where
  shape := shows.shape
  untouched := shows.untouched
  settled other member := by
    obtain ⟨s, listed, same, position, report, reported, status⟩ := shows.settled other member
    exact ⟨s, listed, same, position, report, List.mem_append_left _ reported, status⟩
  reported := shows.reported
  faithful := shows.faithful

/-- **Taking in all islands**: in the end the pool shows the position of every island to be
solved. -/
theorem Shows.gather {final : Session.Gathered α}
    (components : Partition.Components plan.pool blocks links plan.islands)
    (islands : partition plan.pool blocks links = .ok plan.islands)
    (solved : plan.solvedAll methods options = .ok all)
    (done : Session.gather methods options plan warm all plan.islands
      ⟨plan.pool, warm, [], []⟩ = (final, none)) :
    Shows plan all plan.sound final := by
  refine Session.gather_induction (fun taken gathered => Shows plan all
    (taken.filter fun island => (plan.faultsOf island.index).isEmpty) gathered)
    components solved ?_ ?_ (.start plan all warm) done
  · intro taken gathered island shows _ faulty
    simpa [List.filter_append, faulty] using shows.skip island (plan.faultsOf island.index)
  · intro taken gathered s diagnosis shows within listed known fresh sound diagnosed
    rw [List.filter_append, List.filter_singleton, sound]
    obtain ⟨-, evaluates⟩ := Plan.evaluates_of_solvedAll solved listed
    exact shows.take components (fun island before => within island (List.mem_filter.mp before).1)
      listed known evaluates (Partition.nodup_unknowns islands known)
      (fun before => fresh (List.mem_filter.mp before).1) (isConverged_of_diagnose diagnosed)

omit [Scalar α] in
/-- Without faults all islands are to be solved. -/
theorem sound_eq_islands (faultless : plan.faults = []) : plan.sound = plan.islands := by
  rw [Plan.sound, List.filter_eq_self]
  intro island _
  rw [faultsOf_eq_nil faultless]
  rfl

end Gathering

/-! ### A whole plan -/

section Whole

variable {plan : Plan α} {methods : Methods α} {options : Options α} {session session' : Session α}
  {result : Result α} {all : List (Plan.Solved α)} {blocks : List (Block α)}
  {links : List (List Variable)}

/-- What carrying out a plan settles: each registered variable is reported at its value, a bound one
has the value that it is bound to, and each island is evaluated and reported at these values. -/
structure Settled (plan : Plan α) (options : Options α) (result : Result α) (values : Valuation α) :
    Prop where
  reported : ∀ v ∈ plan.pool.keys, result.value? v = some (values v)
  bound : ∀ v, plan.pool.isFree v = false → values v = plan.pool.valuation v
  evaluated : ∀ island ∈ plan.islands, ∃ s : Plan.Solved α, s.island = island ∧
    plan.Evaluates options s ∧
    (∀ v ∈ island.unknowns, values v = s.system.valuation s.outcome.x v) ∧
    ∃ report ∈ result.islands, report.status.isConverged = s.outcome.converged

theorem exists_of_carryOut
    (done : session.carryOut methods options plan = (session', .ok result)) :
    ∃ all gathered, plan.solvedAll methods options = .ok all ∧
      Session.gather methods options plan session all plan.islands ⟨plan.pool, session, [], []⟩ =
        (gathered, none) ∧
      let final := Session.addBound plan.islands (Session.addOrphans plan.orphans gathered)
      result = ⟨final.updated, final.reports, plan.flaws⟩ := by
  unfold Session.carryOut at done
  split at done
  · cases done
  · rename_i all solved
    split at done
    · cases done
    · rename_i gathered gathering
      cases done
      exact ⟨all, gathered, solved, gathering, rfl⟩

theorem isSome_islandOf?_iff {islands : List (Island α)} {v : Variable} :
    (islandOf? islands v).isNone = false ↔ ∃ island ∈ islands, v ∈ island.members := by
  simp [islandOf?]

/-- **No registered variable goes without a report**: it is a member of an island, or bound and in
no island. -/
theorem find?_addBound {gathered : Session.Gathered α}
    (shows : Shows plan all plan.islands gathered)
    (components : Partition.Components plan.pool blocks links plan.islands) {v : Variable}
    (registered : v ∈ plan.pool.keys) :
    Assoc.find? v (Session.addBound plan.islands gathered).updated =
      some (gathered.pool.valuation v) := by
  have bound := Assoc.find?_putAll_map gathered.updated (gathered.pool.keys.filter fun v =>
    (PlaneSketch.islandOf? plan.islands v).isNone && !gathered.pool.isFree v)
    gathered.pool.valuation v
  refine bound.trans ?_
  split
  · rfl
  · rename_i inside
    have member : ∃ island ∈ plan.islands, v ∈ island.members := by
      by_cases free : plan.pool.isFree v = true
      · obtain ⟨island, ⟨member, unknown⟩, -⟩ := components.free_once v free
        exact ⟨island, member, List.mem_append_left _ unknown⟩
      · rw [← isSome_islandOf?_iff]
        by_contra outside
        rw [Bool.not_eq_false] at outside
        refine inside (List.mem_filter.mpr ⟨?_, ?_⟩)
        · rwa [shows.shape.keys]
        · rw [outside, shows.shape.isFree]
          simpa using free
    obtain ⟨island, listed, member⟩ := member
    obtain ⟨value, found⟩ := shows.reported island listed v member
    rw [found, shows.faithful v value found]

/-- **What a plan settles**, when nothing keeps it from being carried out. -/
theorem exists_settled (components : Partition.Components plan.pool blocks links plan.islands)
    (islands : partition plan.pool blocks links = .ok plan.islands) (faultless : plan.faults = [])
    (orphanless : plan.orphans = [])
    (done : session.carryOut methods options plan = (session', .ok result)) :
    ∃ values, Settled plan options result values := by
  obtain ⟨all, gathered, solved, gathering, result_eq⟩ := exists_of_carryOut done
  have shows := Shows.gather components islands solved gathering
  rw [sound_eq_islands faultless] at shows
  rw [orphanless] at result_eq
  refine ⟨gathered.pool.valuation, ?_, ?_, ?_⟩
  · intro v registered
    rw [Result.value?, result_eq]
    exact find?_addBound shows components registered
  · intro v bound
    refine shows.untouched v fun island member unknown => ?_
    rw [components.unknowns_free island member v unknown] at bound
    cases bound
  · intro island member
    obtain ⟨s, listed, same, position, report, reported, status⟩ := shows.settled island member
    refine ⟨s, same, (Plan.evaluates_of_solvedAll solved listed).2, position, report, ?_, status⟩
    rw [result_eq]
    exact reported

end Whole

end PlaneSketch
