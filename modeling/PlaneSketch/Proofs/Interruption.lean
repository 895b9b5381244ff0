import Mathlib
import PlaneSketch.Proofs.History
import PlaneSketch.Proofs.Isolation
import PlaneSketch.Proofs.Trouble

/-!
What a solve that fails leaves remembered.

A solve can fail before it looks at any island, while it solves one, or while it diagnoses one. All
islands are solved before the first is diagnosed, and each is remembered as soon as it is
diagnosed.

* `fails_of_solve`: so a solve that fails leaves everything of the drawing remembered as it was,
  unless a diagnosis failed; then what was diagnosed before is remembered where it was solved.
* `keeps_of_fails`: no other failure changes what is remembered.
* `exists_remembered_of_failed`: a drag can move a point for good in a solve that fails.
-/

namespace PlaneSketch

variable {α : Type} [Scalar α]

/-! ### Ways to fail -/

section Diagnosing

variable {methods : Methods α} {options : Options α}

/-- A diagnosis fails for want of singular values only. -/
theorem failure_of_diagnose {pool : Pool α} {system : Equations α} {outcome : Outcome α}
    {failure : Failure} (failed : diagnose methods options pool system outcome = .error failure) :
    failure = .noSingularValues := by
  unfold diagnose at failed
  dsimp only at failed
  split at failed
  · rcases bind_eq_error_iff.mp failed with ranked | ⟨rank, -, rest⟩
    · cases ranked
    · rcases bind_eq_error_iff.mp rest with unblamed | ⟨dependent, -, ended⟩
      · unfold Diagnosis.blamed at unblamed
        split at unblamed
        · split at unblamed
          · cases unblamed
          · exact (Except.error.inj unblamed).symm
        · cases unblamed
      · split at ended <;> cases ended
  · exact (Except.error.inj failed).symm

theorem exists_diagnosis (strict : methods.Strict) (pool : Pool α) (system : Equations α)
    {outcome : Outcome α} (finite : Matrix.isFinite outcome.jacobian = true) :
    ∃ diagnosis, diagnose methods options pool system outcome = .ok diagnosis := by
  rcases diagnose_cases strict pool system outcome with ⟨-, diagnosed⟩ | ⟨infinite, -⟩
  · exact diagnosed
  · cases finite.symm.trans infinite

theorem diagnose_of_infinite (strict : methods.Strict) (pool : Pool α) (system : Equations α)
    {outcome : Outcome α} (infinite : Matrix.isFinite outcome.jacobian = false) :
    diagnose methods options pool system outcome = .error .noSingularValues := by
  rcases diagnose_cases strict pool system outcome with ⟨finite, -⟩ | ⟨-, undiagnosed⟩
  · cases finite.symm.trans infinite
  · exact undiagnosed

end Diagnosing

/-- What is remembered of a drawing is what was remembered before. -/
def Session.Keeps (session' session : Session α) (sketch : Sketch α) : Prop :=
  ∀ v ∈ (Pool.ofSketch sketch).keys,
    Assoc.find? v session'.cache = Assoc.find? v session.cache

/-- What is remembered when the diagnosis of an island failed: what was solved for in the islands
before it, where it was solved, and everything else of the drawing as before. -/
structure Session.Interrupted (session' session : Session α) (sketch : Sketch α)
    (all : List (Plan.Solved α)) (island : Island α) : Prop where
  written : ∀ s ∈ all, s.island.index < island.index → ∀ v ∈ s.island.unknowns,
    Assoc.find? v session'.cache = some (s.system.valuation s.outcome.x v)
  kept : ∀ v ∈ (Pool.ofSketch sketch).keys,
    (∀ s ∈ all, s.island.index < island.index → v ∉ s.island.unknowns) →
      Assoc.find? v session'.cache = Assoc.find? v session.cache

/-- How a solve fails, and what it leaves remembered. -/
inductive Session.Fails {ν : Type} [Ordered ν] (numerals : Numerals ν α) (methods : Methods α)
    (options : Options ν) (session : Session α) (sketch : Sketch α) (drag : Option (Drag α)) :
    Failure → Session α → Prop
  /-- the solver cannot run with the settings -/
  | unusable {failure : Failure} {session' : Session α} :
      options.check numerals.text = .error failure → session'.Keeps session sketch →
      Fails numerals methods options session sketch drag failure session'
  /-- the drawing does not compile, or what is dragged is not there -/
  | unplanned {failure : Failure} {session' : Session α} :
      Plan.make sketch (session.seeded sketch) drag = .error failure →
      session'.Keeps session sketch →
      Fails numerals methods options session sketch drag failure session'
  /-- an island cannot be solved -/
  | unsolved {failure : Failure} {session' : Session α} {plan : Plan α} :
      Plan.make sketch (session.seeded sketch) drag = .ok plan →
      plan.solvedAll methods (options.map numerals.value) = .error failure →
      session'.Keeps session sketch →
      Fails numerals methods options session sketch drag failure session'
  /-- an island cannot be diagnosed -/
  | undiagnosed {session' : Session α} {plan : Plan α} {all : List (Plan.Solved α)}
      {s : Plan.Solved α} :
      Plan.make sketch (session.seeded sketch) drag = .ok plan →
      plan.solvedAll methods (options.map numerals.value) = .ok all → s ∈ all →
      diagnose methods (options.map numerals.value) plan.pool s.system s.outcome =
        .error .noSingularValues →
      session'.Interrupted session sketch all s.island →
      Fails numerals methods options session sketch drag .noSingularValues session'

section Failing

variable {ν : Type} [Ordered ν] {numerals : Numerals ν α} {methods : Methods α}
  {options : Options ν} {session session' : Session α} {sketch : Sketch α}
  {drag : Option (Drag α)} {failure : Failure}

omit [Scalar α] in
/-- Forgetting what is gone keeps what is there. -/
theorem Session.keeps_prune (session : Session α) (sketch : Sketch α) :
    (session.prune (Pool.ofSketch sketch)).Keeps session sketch := by
  intro v registered
  rw [find?_prune, if_pos (Pool.contains_iff.mpr registered)]

omit [Scalar α] in
/-- The islands that come before one of them are those with smaller numbers. -/
theorem mem_iff_index_lt {islands before rest : List (Island α)} {island other : Island α}
    {pool : Pool α} {blocks : List (Block α)} {links : List (List Variable)}
    (components : Partition.Components pool blocks links islands)
    (order : islands = before ++ island :: rest) (known : other ∈ islands) :
    other ∈ before ↔ other.index < island.index := by
  have place : island.index = before.length := by
    have inside : before.length < islands.length := by simp [order]
    have placed := components.index_eq before.length inside
    simpa [order] using placed
  obtain ⟨i, inside, rfl⟩ := List.getElem_of_mem known
  rw [components.index_eq i inside, place]
  constructor
  · intro listed
    obtain ⟨j, inside', same⟩ := List.getElem_of_mem listed
    have within : j < islands.length := by
      rw [order, List.length_append]
      omega
    have same' : islands[j] = islands[i] := by
      rw [← same]
      simp [order, inside']
    have := (nodup_islands components).getElem_inj_iff.mp same'
    omega
  · intro below
    have there : islands[i] = before[i] := by simp [order, below]
    rw [there]
    exact List.getElem_mem below

/-- **How a solve fails**: for its settings, its drawing or its drag, at an island that cannot be
solved, or at an island that cannot be diagnosed; in the last case alone, what was diagnosed before
is remembered where it was solved. -/
theorem fails_of_solve
    (done : session.solve numerals methods options sketch drag = (session', .error failure)) :
    session.Fails numerals methods options sketch drag failure session' := by
  unfold Session.solve at done
  split at done
  · rename_i failure' unusable
    cases done
    exact .unusable unusable fun _ _ => rfl
  · rename_i checked usable
    obtain rfl : options = checked := by
      unfold Options.check at usable
      split at usable
      · exact Except.ok.inj usable
      · cases usable
    unfold Session.solveWith at done
    dsimp only at done
    split at done
    · rename_i failure' unplanned
      cases done
      exact .unplanned unplanned (session.keeps_prune sketch)
    · rename_i plan make
      obtain ⟨blocks, made⟩ := Plan.exists_made make
      have components := made.components (session.sameShape_seeded sketch)
      unfold Session.carryOut at done
      split at done
      · rename_i failure' unsolved
        cases done
        exact .unsolved make unsolved (session.keeps_prune sketch)
      · rename_i all solved
        split at done
        · rename_i gathered failure' gathering
          cases done
          obtain ⟨before, rest, order, ⟨shape, writes⟩, stops⟩ :=
            Session.Writes.gather components made.islands solved gathering
          cases stops with
          | @undiagnosed s rest _ listed undiagnosed =>
            have first := fun other listed' => mem_iff_index_lt components order
              (Plan.evaluates_of_solvedAll (s := other) solved listed').1
            obtain rfl := failure_of_diagnose undiagnosed
            refine .undiagnosed make solved listed ?_ ⟨?_, ?_⟩
            · rwa [diagnose_of_sameShape shape] at undiagnosed
            · intro other listed' earlier v unknown
              exact writes.written other listed' ((first other listed').mpr earlier) v unknown
            · intro v registered others
              rw [writes.kept v fun other listed' taken =>
                others other listed' ((first other listed').mp taken)]
              exact session.keeps_prune sketch v registered
        · cases done

/-- **Nothing but a diagnosis that fails changes what is remembered.** -/
theorem keeps_of_fails (fails : session.Fails numerals methods options sketch drag failure session')
    (other : failure ≠ .noSingularValues) : session'.Keeps session sketch := by
  cases fails with
  | unusable _ keeps | unplanned _ keeps | unsolved _ _ keeps => exact keeps
  | undiagnosed => exact absurd rfl other

end Failing

/-! ### A drag beside a line without a direction -/

/-- A point by itself, and a point on a line between two others. -/
def strained (a b : α) : Sketch α where
  features := ⟨[⟨some (.point 0 0 false), 0⟩, ⟨some (.point a 0 false), 0⟩,
    ⟨some (.point b 0 false), 0⟩, ⟨some (.line ⟨1, 0⟩ ⟨2, 0⟩ false), 0⟩,
    ⟨some (.point 0 0 false), 0⟩]⟩
  constraints := ⟨[⟨some (.plain .coincident [⟨4, 0⟩, ⟨3, 0⟩] none none), 0⟩]⟩
  groups := []

namespace Strained

/-- The point by itself is remembered where it is drawn. -/
def remembered : Session α := ⟨[(⟨⟨0, 0⟩, .x⟩, 0), (⟨⟨0, 0⟩, .y⟩, 0)]⟩

/-- It is dragged. -/
def drag : Drag α := ⟨⟨0, 0⟩, ⟨1, 1⟩⟩

def spot : Island α := ⟨0, coordinates [⟨0, 0⟩], [], []⟩

def line : Island α where
  index := 1
  unknowns := coordinates [⟨1, 0⟩, ⟨2, 0⟩, ⟨4, 0⟩]
  pinned := []
  blocks := [⟨.constraint ⟨0, 0⟩ .coincident, .onLine ⟨4, 0⟩ ⟨1, 0⟩ ⟨2, 0⟩⟩]

def plan (a b : α) : Plan α where
  flaws := []
  pool := remembered.seeded (strained a b)
  islands := [spot, line]
  faults := []
  orphans := []
  dragging := true
  anchors := [⟨0, 0⟩]
  targets := [(0, meanPoint [⟨0, 0⟩] + (drag.target - meanPoint [⟨0, 0⟩]))]

theorem made (a b : α) :
    Plan.make (strained a b) (remembered.seeded (strained a b)) (some drag) = .ok (plan a b) := by
  cbv

/-- Where the drag leaves the point. -/
def moved (weight : α) : List α :=
  (⟨[0], [1], meanPoint [⟨0, 0⟩] + (drag.target - meanPoint [⟨0, 0⟩]), weight⟩ : Pull α).recenter
    [0, 0]

/-- The point by itself follows the drag. -/
def spotSolved (options : Options α) (a b : α) : Plan.Solved α :=
  ⟨spot, (plan a b).system spot,
    ((plan a b).system spot).outcomeAt options (moved options.dragWeight) 0⟩

/-- The line is left where it is. -/
def lineSolved (options : Options α) (a b : α) : Plan.Solved α :=
  ⟨line, (plan a b).system line, ((plan a b).system line).outcomeAt options [a, 0, b, 0, 0, 0] 0⟩

variable {methods : Methods α} {options : Options α}

theorem solved_spot (a b : α) :
    (plan a b).solved methods options spot = .ok (spotSolved options a b) := by
  obtain ⟨values, registered⟩ : ∃ values, islandValues (plan a b).pool spot = .ok values :=
    ⟨_, by cbv⟩
  refine Plan.solved_of_registered (x := [0, 0]) registered (by cbv) ?_
  rw [← Plan.outcomeAt_optionsFor (plan a b) options 0]
  rfl

theorem solved_line (freezes : options.freezeUndragged = true) (a b : α) :
    (plan a b).solved methods options line = .ok (lineSolved options a b) := by
  obtain ⟨values, registered⟩ : ∃ values, islandValues (plan a b).pool line = .ok values :=
    ⟨_, by cbv⟩
  have unpulled : (plan a b).target? (line : Island α).index = none := rfl
  refine Plan.solved_of_registered (x := [a, 0, b, 0, 0, 0]) registered (by cbv) ?_
  rw [Plan.pull?_of_target? unpulled, Plan.optionsFor_of_frozen unpulled rfl freezes,
    Equations.solve_of_no_steps methods _ rfl]
  rfl

/-- The ends of the line are too far apart for its direction to be a number. -/
theorem infinite : Matrix.isFinite
    (((plan (-1e308) 1e308 : Plan Float).system line).jacobian [-1e308, 0, 1e308, 0, 0, 0]) =
      false := by
  decide +kernel

/-- The point is taken in. -/
def gathered (options : Options α) (warm : Session α) (diagnosis : Diagnosis) (a b : α) :
    Session.Gathered α :=
  (⟨(plan a b).pool, warm, [], []⟩ : Session.Gathered α).take warm (spotSolved options a b)
    diagnosis

/-- What is then remembered. -/
def left (options : Options α) (warm : Session α) (a b : α) : Session α :=
  ⟨Assoc.putAll warm.cache ((spotSolved options a b).island.unknowns.map fun v =>
    (v, ((plan a b).pool.scatter (spotSolved options a b).island.unknowns
      (spotSolved options a b).outcome.x).1.valuation v))⟩

theorem session_gathered (warm : Session α) (diagnosis : Diagnosis) (a b : α) :
    (gathered options warm diagnosis a b).session = left options warm a b := by
  simp only [gathered, Session.Gathered.take, left]

/-- The point is diagnosed, and the line is not. -/
theorem carryOut_eq (strict : methods.Strict) (freezes : options.freezeUndragged = true) {a b : α}
    (infinite : Matrix.isFinite
      (((plan a b).system line).jacobian [a, 0, b, 0, 0, 0]) = false) (warm : Session α) :
    warm.carryOut methods options (plan a b) =
      (left options warm a b, .error .noSingularValues) := by
  have all : (plan a b).solvedAll methods options =
      .ok [spotSolved options a b, lineSolved options a b] :=
    mapM_eq_ok_iff.mpr (.cons (solved_spot a b) (.cons (solved_line freezes a b) .nil))
  obtain ⟨diagnosis, diagnosed⟩ : ∃ diagnosis, diagnose methods options (plan a b).pool
      (spotSolved options a b).system (spotSolved options a b).outcome = .ok diagnosis :=
    exists_diagnosis strict _ _ rfl
  have undiagnosed (pool : Pool α) : diagnose methods options pool (lineSolved options a b).system
      (lineSolved options a b).outcome = .error .noSingularValues :=
    diagnose_of_infinite strict _ _ infinite
  have sound (index : Nat) : (plan a b).faultsOf index = [] := rfl
  have first : [spotSolved options a b, lineSolved options a b].find? (fun s =>
      s.island.index = (spot : Island α).index) = some (spotSolved options a b) := rfl
  have second : [spotSolved options a b, lineSolved options a b].find? (fun s =>
      s.island.index = (line : Island α).index) = some (lineSolved options a b) := rfl
  have stops (gathered : Session.Gathered α) : Session.gather methods options (plan a b) warm
      [spotSolved options a b, lineSolved options a b] [line] gathered =
        (gathered, some .noSingularValues) :=
    Session.gather_cons_of_undiagnosed (sound _) second (undiagnosed _)
  have gathering : Session.gather methods options (plan a b) warm
      [spotSolved options a b, lineSolved options a b] (plan a b).islands
        ⟨(plan a b).pool, warm, [], []⟩ =
          (gathered options warm diagnosis a b, some .noSingularValues) := by
    refine (Session.gather_cons_of_sound (sound _) first ?_).trans (stops _)
    with_reducible exact diagnosed
  unfold Session.carryOut
  simp only [all, gathering, session_gathered]

/-- With doubles, the solve fails. -/
theorem solve_eq : remembered.solve Doubles.numerals Doubles.methods Doubles.options
    (strained (-1e308) 1e308) (some drag) =
      (left (Doubles.options.map Doubles.numerals.value)
        (remembered.prune (Pool.ofSketch (strained (-1e308) 1e308))) (-1e308) 1e308,
        .error .noSingularValues) := by
  rw [Session.solve_of_isUsable Doubles.isUsable_options (made _ _)]
  exact carryOut_eq Methods.strict_orthogonal rfl infinite _

end Strained

theorem fails_of_solve_strained : ∃ session' : Session Float,
    Strained.remembered.solve Doubles.numerals Doubles.methods Doubles.options
      (strained (-1e308) 1e308) (some Strained.drag) = (session', .error .noSingularValues) ∧
    Strained.remembered.Fails Doubles.numerals Doubles.methods Doubles.options
      (strained (-1e308) 1e308) (some Strained.drag) .noSingularValues session' :=
  ⟨_, Strained.solve_eq, fails_of_solve Strained.solve_eq⟩

/-- **A solve that fails can change what is remembered.** A point is dragged beside a line whose
direction is no number: the solve fails at the line, and the point is remembered where it was
dragged to. -/
theorem exists_remembered_of_failed :
    ∃ (session session' : Session Float) (sketch : Sketch Float) (drag : Drag Float)
      (v : Variable), v ∈ (Pool.ofSketch sketch).keys ∧
      session.solve Doubles.numerals Doubles.methods Doubles.options sketch (some drag) =
        (session', .error .noSingularValues) ∧
      Assoc.find? v session.cache = some 0 ∧ Assoc.find? v session'.cache = some 1 := by
  refine ⟨Strained.remembered, _, strained (-1e308) 1e308, Strained.drag, ⟨⟨0, 0⟩, .x⟩, ?_,
    Strained.solve_eq, ?_, ?_⟩
  · exact Pool.mem_keys_ofSketch.mpr ⟨.point 0 0 false, rfl, List.mem_cons_self⟩
  · decide +kernel
  · decide +kernel

end PlaneSketch
