import Mathlib
import PlaneSketch.Proofs.Containment
import PlaneSketch.Proofs.Values

/-!
Islands do not interfere.

All islands are solved from one pool, one session and one list of anchors. What an island is solved
from is nevertheless its own: where its free variables start, the constants that are bound in it,
and the anchors that lie in it.

* `Plan.target?_of_spared`: a drag pulls no island that it has no free anchor in.
* `Plan.Agrees.outcome_eq`: plans that agree on where an island starts lead it to the same outcome.
* `alike_of_spared`: two solves that agree on an island report it in the same way, whatever else is
  drawn, remembered or dragged, and a drag that leaves it alone leaves it where it is.
-/

namespace PlaneSketch

variable {α : Type} [Scalar α]

/-! ### Islands without an anchor -/

/-- The drag, if there is one, has no free anchor in the island. -/
def Island.Spared (island : Island α) (sketch : Sketch α) (drag : Option (Drag α)) : Prop :=
  ∀ d ∈ drag, d.feature ∉ sketch.brokenFeatures sketch.flaws →
    ∀ anchors, sketch.dragAnchors d.feature = .ok anchors → ∀ h ∈ anchors, ⟨h, .x⟩ ∉ island.unknowns

section Sparing

variable {sketch other : Sketch α} {start : Pool α} {drag : Option (Drag α)} {plan : Plan α}
  {island : Island α} {blocks : List (Block α)} {links : List (List Variable)}

theorem Island.Spared.of_sameOutline (spared : island.Spared sketch drag)
    (outline : sketch.SameOutline other) : island.Spared other drag := by
  intro d dragged sound anchors listed
  rw [outline.flaws_eq, outline.brokenFeatures_eq] at sound
  rw [Sketch.dragAnchors_congr outline.features] at listed
  exact spared d dragged sound anchors listed

/-- **A drag pulls no island that it has no free anchor in.** -/
theorem Plan.target?_of_spared (make : Plan.make sketch start drag = .ok plan)
    (islands : partition plan.pool blocks links = .ok plan.islands)
    (components : Partition.Components plan.pool blocks links plan.islands)
    (known : island ∈ plan.islands) (spared : island.Spared sketch drag) :
    plan.target? island.index = none := by
  obtain ⟨-, pulls⟩ := Plan.drag_of_make make
  cases drag with
  | none =>
    rw [Plan.target?, pulls.2]
    rfl
  | some drag =>
    rcases Plan.dragged_cases pulls with ⟨-, -, targets⟩ | ⟨sound, listed, found⟩
    · rw [Plan.target?, targets]
      rfl
    · obtain ⟨points, located, pulled⟩ := find?_dragTargets islands components found
      have none : followers plan.pool island points = [] := by
        refine List.filterMap_eq_nil_iff.mpr fun point placed => if_neg ?_
        rw [Bool.and_eq_true_iff]
        rintro ⟨free, inside⟩
        obtain ⟨h, anchor, same⟩ := mem_of_mapM_eq_ok located placed
        obtain ⟨position, -, same⟩ := bind_eq_ok_iff.mp same
        obtain rfl := Except.ok.inj same
        exact spared drag rfl sound plan.anchors listed h anchor
          (Partition.mem_unknowns_of_free islands known (List.contains_iff_mem.mp inside) free)
      rw [Plan.target?, pulled island known, pulled?, if_pos none]

end Sparing

/-! ### Solved from the same start -/

section Starting

variable {plan plan' : Plan α} {methods : Methods α} {options : Options α} {island : Island α}
  {blocks : List (Block α)} {links : List (List Variable)} {s s' : Plan.Solved α}

/-- **Plans that agree on where an island starts lead it to the same outcome**, when neither pulls
it and both or none leave it where it is. -/
theorem Plan.Agrees.outcome_eq (agrees : plan.Agrees plan')
    (components : Partition.Components plan.pool blocks links plan.islands)
    (known : island ∈ plan.islands)
    (start : ∀ v ∈ island.unknowns, plan'.pool.valuation v = plan.pool.valuation v)
    (unpulled : plan.target? island.index = none) (unpulled' : plan'.target? island.index = none)
    (settings : plan'.optionsFor options island.index = plan.optionsFor options island.index)
    (done : plan.solved methods options island = .ok s)
    (done' : plan'.solved methods options island = .ok s') : s'.outcome = s.outcome := by
  obtain ⟨-, -, solved⟩ := Plan.exists_of_solved done
  obtain ⟨-, -, solved'⟩ := Plan.exists_of_solved done'
  rw [Plan.pull?_of_target? unpulled] at solved
  rw [Plan.pull?_of_target? unpulled', settings, List.map_congr_left start,
    (agrees.same_system components known).solve, solved] at solved'
  exact (Except.ok.inj solved').symm

omit [Scalar α] in
/-- An island that neither plan pulls gets the same settings, when both plans drag or none does, or
a drag leaves nothing alone. -/
theorem Plan.optionsFor_of_unpulled (unpulled : plan.target? island.index = none)
    (unpulled' : plan'.target? island.index = none)
    (both : plan'.dragging = plan.dragging ∨ options.freezeUndragged = false) :
    plan'.optionsFor options island.index = plan.optionsFor options island.index := by
  have freezing : plan'.isFrozen options island.index = plan.isFrozen options island.index := by
    rw [Plan.isFrozen, Plan.isFrozen, unpulled, unpulled']
    rcases both with both | never
    · rw [both]
    · rw [never, Bool.and_false, Bool.and_false]
  rw [Plan.optionsFor, Plan.optionsFor, freezing]

omit [Scalar α] in
/-- An island left where it is takes no steps. -/
theorem Plan.optionsFor_of_frozen (unpulled : plan.target? island.index = none)
    (dragging : plan.dragging = true) (freezes : options.freezeUndragged = true) :
    plan.optionsFor options island.index = { options with maxIterations := 0 } := by
  simp [optionsFor, isFrozen, dragging, unpulled, freezes]

/-- Without steps a system is evaluated where it starts. -/
theorem Equations.solve_of_no_steps (methods : Methods α) (system : Equations α)
    (still : options.maxIterations = 0) (x : List α) :
    system.solve methods options none x = ⟨[], .ok (system.outcomeAt options x 0)⟩ := by
  unfold Equations.solve
  split
  · rfl
  · dsimp only [Descent.hard]
    rw [still]
    rfl

/-- **An island left where it is** ends where it starts. -/
theorem Plan.outcome_of_frozen (islands : partition plan.pool blocks links = .ok plan.islands)
    (known : island ∈ plan.islands) (unpulled : plan.target? island.index = none)
    (dragging : plan.dragging = true) (freezes : options.freezeUndragged = true)
    (done : plan.solved methods options island = .ok s) :
    s.outcome.iterations = 0 ∧
      ∀ v ∈ island.unknowns, s.system.valuation s.outcome.x v = plan.pool.valuation v := by
  obtain ⟨-, system, solved⟩ := Plan.exists_of_solved done
  rw [Plan.pull?_of_target? unpulled, Plan.optionsFor_of_frozen unpulled dragging freezes,
    Equations.solve_of_no_steps methods _ rfl] at solved
  rw [← Except.ok.inj solved, system]
  have position : island.unknowns.map ((plan.system island).valuation
      (island.unknowns.map plan.pool.valuation)) = island.unknowns.map plan.pool.valuation :=
    Equations.map_valuation (Partition.nodup_unknowns islands known) (List.length_map _)
  exact ⟨rfl, List.map_inj_left.mp position⟩

end Starting

/-! ### Reported in the same way -/

section Telling

variable {plan plan' : Plan α} {methods : Methods α} {options : Options α} {island : Island α}
  {warm warm' : Session α} {result result' : Result α} {blocks : List (Block α)}
  {links : List (List Variable)}

/-- A skipped island is reported with its flaws and without values. -/
theorem Plan.Agrees.told_of_faulty (agrees : plan.Agrees plan')
    (told : Told plan methods options warm result)
    (told' : Told plan' methods options warm' result')
    (known : island ∈ plan.islands) (faulty : plan.faultsOf island.index ≠ [])
    {report report' : Report α}
    (reported : Reported plan methods options warm island report)
    (reported' : Reported plan' methods options warm' island report') :
    report' = report ∧ ∀ v ∈ island.members, result'.value? v = result.value? v := by
  have faults := agrees.faultsOf island.index
  constructor
  · cases reported with
    | solved sound _ _ _ => exact absurd sound faulty
    | skipped _ =>
      cases reported' with
      | solved sound _ _ _ => exact absurd (faults.symm.trans sound) faulty
      | skipped _ => rw [faults]
  · intro v inside
    rw [told.value?_of_faulty known faulty inside,
      told'.value?_of_faulty (agrees.islands ▸ known) (faults ▸ faulty) inside]

/-- An island with the same outcome is reported in the same way, with the same values. -/
theorem Plan.Agrees.told_of_sound (agrees : plan.Agrees plan')
    (told : Told plan methods options warm result)
    (told' : Told plan' methods options warm' result')
    (components : Partition.Components plan.pool blocks links plan.islands)
    (islands : partition plan.pool blocks links = .ok plan.islands)
    (known : island ∈ plan.islands) (sound : plan.faultsOf island.index = [])
    (same : ∀ s s', plan.solved methods options island = .ok s →
      plan'.solved methods options island = .ok s' → s'.outcome = s.outcome)
    (remembers : island.unknowns.any warm'.remembers = island.unknowns.any warm.remembers)
    {report report' : Report α} (reported : Reported plan methods options warm island report)
    (reported' : Reported plan' methods options warm' island report') :
    report' = report ∧ ∀ v ∈ island.members, result'.value? v = result.value? v := by
  have sound' := (agrees.faultsOf island.index).trans sound
  obtain ⟨s, solved, values⟩ := told.value island known sound
  obtain ⟨s', solved', values'⟩ := told'.value island (agrees.islands ▸ known) sound'
  have outcome := same s s' solved solved'
  constructor
  · have unskipped : report.status ≠ .skipped :=
      fun skipped => reported.skipped_iff.mp skipped sound
    have warmStarted : report'.warmStarted = report.warmStarted := by
      rw [(reported'.of_solved sound' solved').2.2, (reported.of_solved sound solved).2.2,
        remembers]
    have kept : s'.outcome = { s.outcome with iterations := report.iterations } := by
      rw [outcome, (reported.of_solved sound solved).1]
    have equal := agrees.report_eq components known solved solved' kept reported reported' unskipped
    rw [warmStarted] at equal
    exact equal.symm
  · intro v inside
    have position : s'.outcome.x = s.outcome.x := by rw [outcome]
    rw [values v inside, values' v inside,
      agrees.value_eq islands known solved solved' position inside]

/-- An island left where it is has the values that it starts from. -/
theorem Told.value_of_frozen (told : Told plan methods options warm result)
    (islands : partition plan.pool blocks links = .ok plan.islands)
    (known : island ∈ plan.islands) (unpulled : plan.target? island.index = none)
    (dragging : plan.dragging = true) (freezes : options.freezeUndragged = true)
    {report : Report α} (reported : Reported plan methods options warm island report)
    (unskipped : report.status ≠ .skipped) :
    report.iterations = 0 ∧
      ∀ v ∈ island.unknowns, result.value? v = some (plan.pool.valuation v) := by
  have sound := reported.sound unskipped
  obtain ⟨s, solved, values⟩ := told.value island known sound
  obtain ⟨still, position⟩ :=
    Plan.outcome_of_frozen islands known unpulled dragging freezes solved
  refine ⟨(reported.of_solved sound solved).1.trans still, fun v unknown => ?_⟩
  rw [values v (List.mem_append_left _ unknown), position v unknown]

end Telling

/-! ### Two solves -/

/-- All that an island sees of a drawing and of what is remembered is the same: the outline of the
drawing, and where the island's free variables are drawn and remembered. -/
structure Island.SeesSame (island : Island α) (sketch other : Sketch α)
    (session later : Session α) : Prop where
  outline : sketch.SameOutline other
  drawn : ∀ v ∈ island.unknowns, other.drawn? v = sketch.drawn? v
  remembered : ∀ v ∈ island.unknowns,
    Assoc.find? v later.cache = Assoc.find? v session.cache

section Solving

variable {ν : Type} [Ordered ν] {numerals : Numerals ν α} {methods : Methods α}
  {options : Options ν} {sketch other : Sketch α} {drag drag' : Option (Drag α)}
  {session session' later later' : Session α} {result result' : Result α} {plan plan' : Plan α}
  {pool : Pool α} {blocks : List (Block α)} {islands : List (Island α)} {island : Island α}

/-- Every solve of a drawing has the islands of the drawing. -/
theorem Plan.Made.islands_eq {blocks' : List (Block α)}
    (compiled : Plan.compiled sketch (Pool.ofSketch sketch) sketch.flaws = .ok (pool, blocks))
    (partitioned : Plan.islandsOf sketch pool blocks sketch.flaws = .ok islands)
    (made : Plan.Made sketch (session.seeded sketch) plan blocks') : plan.islands = islands := by
  have drawn : Plan.Made sketch (Pool.ofSketch sketch) (Plan.still sketch pool islands) blocks :=
    ⟨rfl, compiled, partitioned, rfl⟩
  exact (drawn.agrees (.refl sketch) (session.sameShape_seeded sketch)
    (Pool.binding?_ofSketch sketch) made).islands

omit [Scalar α] in
/-- The pruned sessions remember the same variables of the island. -/
theorem Island.SeesSame.remembers_eq (same : island.SeesSame sketch other session later) :
    island.unknowns.any (later.prune (Pool.ofSketch other)).remembers =
      island.unknowns.any (session.prune (Pool.ofSketch sketch)).remembers := by
  have shape := Pool.sameShape_ofSketch same.outline.features
  rw [Bool.eq_iff_iff, List.any_eq_true, List.any_eq_true]
  refine exists_congr fun v => and_congr_right fun unknown => ?_
  rw [Session.remembers, Session.remembers, Session.find?_prune, Session.find?_prune,
    shape.contains, same.remembered v unknown]

/-- **Islands do not interfere.** For every drawing and every island of it, take any two solves with
the same settings: of the drawing and of another with the same outline, with whatever is remembered
and whatever is dragged, as long as both agree on where the island's free variables start, neither
has a free anchor in the island, and both drag or none does, or a drag leaves nothing alone. If both
return, they say the same of the island and of its variables, word for word. A drag that leaves
alone what it does not pull leaves the island's free variables where they started, in no steps. -/
theorem alike_of_spared
    (compiled : Plan.compiled sketch (Pool.ofSketch sketch) sketch.flaws = .ok (pool, blocks))
    (partitioned : Plan.islandsOf sketch pool blocks sketch.flaws = .ok islands)
    (known : island ∈ islands) (same : island.SeesSame sketch other session later)
    (distinct : session.Distinct) (distinct' : later.Distinct)
    (spared : island.Spared sketch drag) (spared' : island.Spared sketch drag')
    (both : drag'.isSome = drag.isSome ∨ options.freezeUndragged = false)
    (done : session.solve numerals methods options sketch drag = (session', .ok result))
    (done' : later.solve numerals methods options other drag' = (later', .ok result')) :
    ∃ report, result.islands[island.index]? = some report ∧
      result'.islands[island.index]? = some report ∧ report.unknowns = island.members ∧
      (∀ v ∈ island.members, result'.value? v = result.value? v) ∧
      (drag.isSome = true → options.freezeUndragged = true → report.status ≠ .skipped →
        report.iterations = 0 ∧
          ∀ v ∈ island.unknowns, result.value? v = session.seed? sketch v) := by
  obtain ⟨plan, blocks₁, make, made, components, told⟩ := exists_told_of_solve done
  obtain ⟨plan', blocks₂, make', made', components', told'⟩ := exists_told_of_solve done'
  have agrees := made.agrees_of_seeded same.outline made'
  obtain rfl : plan.islands = islands := Plan.Made.islands_eq compiled partitioned made
  have known' : island ∈ plan'.islands := agrees.islands ▸ known
  have target := Plan.target?_of_spared make made.islands components known spared
  have target' := Plan.target?_of_spared make' made'.islands components' known'
    (spared'.of_sameOutline same.outline)
  obtain ⟨dragging, -⟩ := Plan.drag_of_make make
  obtain ⟨dragging', -⟩ := Plan.drag_of_make make'
  obtain ⟨report, placed, reported⟩ := told.report_at components known
  obtain ⟨report', placed', reported'⟩ := told'.report_at components' known'
  have start : ∀ v ∈ island.unknowns, session.seed? sketch v = some (plan.pool.valuation v) :=
    fun v unknown => made.seed?_eq distinct (components.unknowns_free island known v unknown)
  have start' : ∀ v ∈ island.unknowns, plan'.pool.valuation v = plan.pool.valuation v := by
    intro v unknown
    have seeded := made'.seed?_eq distinct' (components'.unknowns_free island known' v unknown)
    rw [Session.seed?, same.remembered v unknown, same.drawn v unknown, ← Session.seed?,
      start v unknown, Option.some.injEq] at seeded
    exact seeded.symm
  have settings : plan'.optionsFor (options.map numerals.value) island.index =
      plan.optionsFor (options.map numerals.value) island.index :=
    Plan.optionsFor_of_unpulled target target' (both.imp_left fun both => by
      rw [dragging, dragging', both])
  have alike : report' = report ∧ ∀ v ∈ island.members, result'.value? v = result.value? v := by
    by_cases sound : plan.faultsOf island.index = []
    · exact agrees.told_of_sound told told' components made.islands known sound
        (fun _ _ => agrees.outcome_eq components known start' target target' settings)
        same.remembers_eq reported reported'
    · exact agrees.told_of_faulty told told' known sound reported reported'
  obtain ⟨rfl, values⟩ := alike
  refine ⟨report', placed, placed', reported.unknowns, values, fun drags freezes unskipped => ?_⟩
  obtain ⟨still, kept⟩ := told.value_of_frozen made.islands known target (dragging.trans drags)
    freezes reported unskipped
  exact ⟨still, fun v unknown => (kept v unknown).trans (start v unknown).symm⟩

end Solving

/-! ### Two points, one of them dragged -/

namespace Lone

/-- A point by itself is solved wherever it is dragged. -/
theorem exists_solved (methods : Methods ℝ) {plan : Plan ℝ} {index : Nat} {point : Handle}
    {values : List (Variable × ℝ)} {x : List ℝ}
    (registered : islandValues plan.pool (island index point) = .ok values)
    (start : (coordinates [point]).mapM plan.pool.value = .ok x) :
    ∃ y, plan.solved methods Options.real (island index point) =
      .ok (stay plan.pool index point y) := by
  have moved : ∀ options pull, ∃ y, (system plan.pool point).solve methods options pull x =
      ⟨[], .ok ((system plan.pool point).outcomeAt options y 0)⟩ := by
    intro options pull
    cases pull with
    | none => exact ⟨x, rfl⟩
    | some pull => exact ⟨pull.recenter x, rfl⟩
  obtain ⟨y, moved⟩ := moved (plan.optionsFor Options.real index)
    (plan.pull? Options.real (system plan.pool point) index)
  rw [Plan.outcomeAt_optionsFor] at moved
  exact ⟨y, Plan.solved_of_registered registered start (congrArg Attempt.outcome moved)⟩

end Lone

/-- Two points with nothing between them. -/
noncomputable def pair (a : ℝ) : Sketch ℝ where
  features := ⟨[⟨some (.point a 0 false), 0⟩, ⟨some (.point 1 0 false), 0⟩]⟩
  constraints := ⟨[]⟩
  groups := []

namespace Pair

variable (a b c : ℝ)

/-- Both points are remembered apart from where they are drawn. -/
noncomputable def remembered : Session ℝ :=
  ⟨[(⟨⟨0, 0⟩, .x⟩, b), (⟨⟨1, 0⟩, .x⟩, 0), (⟨⟨1, 0⟩, .y⟩, -1)]⟩

/-- The first point is dragged. -/
noncomputable def drag : Drag ℝ := ⟨⟨0, 0⟩, ⟨c, 1⟩⟩

noncomputable def plan : Plan ℝ where
  flaws := []
  pool := (remembered b).seeded (pair a)
  islands := [Lone.island 0 ⟨0, 0⟩, Lone.island 1 ⟨1, 0⟩]
  faults := []
  orphans := []
  dragging := true
  anchors := [⟨0, 0⟩]
  targets := [(0, meanPoint [⟨b, 0⟩] + ((drag c).target - meanPoint [⟨b, 0⟩]))]

theorem made : Plan.make (pair a) ((remembered b).seeded (pair a)) (some (drag c)) =
    .ok (plan a b c) := by
  cbv

/-- The first point is found at `x`, the second one at `y`. -/
noncomputable def gathered (x y : List ℝ) : Session.Gathered ℝ :=
  ((⟨(plan a b c).pool, remembered b, [], []⟩ : Session.Gathered ℝ).take (remembered b)
    (Lone.stay (plan a b c).pool 0 ⟨0, 0⟩ x) Lone.diagnosis).take (remembered b)
      (Lone.stay (plan a b c).pool 1 ⟨1, 0⟩ y) Lone.diagnosis

theorem exists_solve : ∃ session' result,
    (remembered b).solve ⟨id, fun _ => ""⟩ Methods.orthogonal Options.real (pair a)
      (some (drag c)) = (session', .ok result) := by
  have pruned : (remembered b).prune (Pool.ofSketch (pair a)) = remembered b := by cbv
  obtain ⟨values, registered⟩ : ∃ values,
      islandValues (plan a b c).pool (Lone.island 0 ⟨0, 0⟩) = .ok values := ⟨_, by cbv⟩
  obtain ⟨values', registered'⟩ : ∃ values,
      islandValues (plan a b c).pool (Lone.island 1 ⟨1, 0⟩) = .ok values := ⟨_, by cbv⟩
  obtain ⟨x, moved⟩ := Lone.exists_solved Methods.orthogonal registered (by cbv)
  obtain ⟨y, stayed⟩ := Lone.exists_solved Methods.orthogonal registered' (by cbv)
  have all : (plan a b c).solvedAll Methods.orthogonal Options.real =
      .ok [Lone.stay _ 0 ⟨0, 0⟩ x, Lone.stay _ 1 ⟨1, 0⟩ y] :=
    mapM_eq_ok_iff.mpr (.cons moved (.cons stayed .nil))
  have gathering : Session.gather Methods.orthogonal Options.real (plan a b c) (remembered b)
      [Lone.stay _ 0 ⟨0, 0⟩ x, Lone.stay _ 1 ⟨1, 0⟩ y] (plan a b c).islands
        ⟨(plan a b c).pool, remembered b, [], []⟩ = (gathered a b c x y, none) :=
    calc Session.gather Methods.orthogonal Options.real (plan a b c) (remembered b) _ [_, _] _
      _ = _ := Session.gather_cons_of_sound rfl rfl (Lone.diagnosed _ _ _ _ _)
      _ = _ := Session.gather_cons_of_sound rfl rfl (Lone.diagnosed _ _ _ _ _)
  rw [Session.solve_of_isUsable Options.isUsable_real (made a b c), pruned]
  exact ⟨_, _, Session.carryOut_of_gather all gathering rfl⟩

theorem compiled : Plan.compiled (pair a) (Pool.ofSketch (pair a)) (pair a).flaws =
    .ok (Pool.ofSketch (pair a), []) := by
  cbv

theorem partitioned : Plan.islandsOf (pair a) (Pool.ofSketch (pair a)) [] (pair a).flaws =
    .ok [Lone.island 0 ⟨0, 0⟩, Lone.island 1 ⟨1, 0⟩] := by
  cbv

theorem distinct : (remembered b).Distinct := by simp [Session.Distinct, remembered]

theorem seesSame (a' b' : ℝ) : (Lone.island 1 ⟨1, 0⟩).SeesSame (pair a) (pair a') (remembered b)
    (remembered b') where
  outline := ⟨rfl, rfl⟩
  drawn v unknown := by
    rcases List.mem_cons.mp unknown with rfl | last
    · rfl
    · obtain rfl := List.mem_singleton.mp last
      rfl
  remembered v unknown := by
    rcases List.mem_cons.mp unknown with rfl | last
    · rfl
    · obtain rfl := List.mem_singleton.mp last
      rfl

theorem spared : (Lone.island 1 ⟨1, 0⟩).Spared (pair a) (some (drag c)) := by
  intro d dragged _ anchors listed h anchor
  obtain rfl := Option.mem_some.mp dragged
  obtain rfl : [⟨0, 0⟩] = anchors := Except.ok.inj listed
  obtain rfl := List.mem_singleton.mp anchor
  simp [Lone.island, coordinates]

end Pair

theorem alike_of_spared_pair : ∃ session' result later' result' report,
    (Pair.remembered 0).solve ⟨id, fun _ => ""⟩ Methods.orthogonal Options.real (pair 0)
      (some (Pair.drag 0)) = (session', .ok result) ∧
    (Pair.remembered 1).solve ⟨id, fun _ => ""⟩ Methods.orthogonal Options.real (pair 1)
      (some (Pair.drag 1)) = (later', .ok result') ∧
    result.islands[1]? = some report ∧ result'.islands[1]? = some report ∧
    report.iterations = 0 ∧ report.status ≠ .skipped ∧
    result.value? ⟨⟨1, 0⟩, .y⟩ = some (-1) ∧ result'.value? ⟨⟨1, 0⟩, .y⟩ = some (-1) := by
  obtain ⟨session', result, done⟩ := Pair.exists_solve 0 0 0
  obtain ⟨later', result', done'⟩ := Pair.exists_solve 1 1 1
  obtain ⟨report, placed, placed', unknowns, values, kept⟩ := alike_of_spared (Pair.compiled 0)
    (Pair.partitioned 0) (List.mem_cons_of_mem _ List.mem_cons_self) (Pair.seesSame 0 0 1 1)
    (Pair.distinct 0) (Pair.distinct 1) (Pair.spared 0 0) (Pair.spared 0 1) (.inl rfl) done done'
  have unskipped : report.status ≠ .skipped := by
    obtain ⟨_, _, -, blames⟩ := blames_of_solve done
    have member := List.mem_of_getElem? placed
    have flawless : result.flaws = [] := blames.flaws.trans (by cbv)
    have none := List.flatMap_eq_nil_iff.mp (flawless ▸ blames.shared).eq_nil report member
    exact fun skipped => (blames.skipped report member).mp skipped none
  obtain ⟨still, start⟩ := kept rfl rfl unskipped
  have level : (⟨⟨1, 0⟩, .y⟩ : Variable) ∈ (Lone.island 1 ⟨1, 0⟩).unknowns := by
    simp [Lone.island, coordinates]
  have seed := start ⟨⟨1, 0⟩, .y⟩ level
  have found : (Pair.remembered 0).seed? (pair 0) ⟨⟨1, 0⟩, .y⟩ = some (-1) := rfl
  refine ⟨session', result, later', result', report, done, done', placed, placed', still,
    unskipped, seed.trans found, ?_⟩
  rw [values _ (List.mem_append_left _ level), seed, found]

end PlaneSketch
