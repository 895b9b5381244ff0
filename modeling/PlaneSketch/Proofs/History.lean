import Mathlib
import PlaneSketch.Proofs.Memory
import PlaneSketch.Sketch.Edit

/-!
What a session remembers while a drawing is edited and solved.

A solve that returns remembers each free variable of an island that it solved where it reports the
variable, and leaves everything else as it was remembered. Variables that are bound are reported as
well, but not remembered.

* `Session.Writes.gather`: island by island, what is solved is remembered and nothing else changes.
* `Desk.distinct_step`, `Desk.distinct_run`: no edit and no solve leads to anything being remembered
  twice.
* `follows_of_run`: so after every history, what is remembered of free variables is what the last
  solve reported.
* `exists_outdated`: a point that was free once and is now bound is remembered where it was then.
-/

namespace PlaneSketch

variable {α : Type} [Scalar α]

/-! ### Island by island -/

section Gathering

variable {plan : Plan α} {methods : Methods α} {options : Options α} {warm : Session α}
  {all : List (Plan.Solved α)} {taken : List (Island α)} {gathered final : Session.Gathered α}
  {blocks : List (Block α)} {links : List (List Variable)} {session : Session α}

/-- The free variables of the islands taken in are remembered where these were solved, everything
else as it was before. -/
structure Session.Writes (session warm : Session α) (all : List (Plan.Solved α))
    (taken : List (Island α)) : Prop where
  written : ∀ s ∈ all, s.island ∈ taken → ∀ v ∈ s.island.unknowns,
    Assoc.find? v session.cache = some (s.system.valuation s.outcome.x v)
  kept : ∀ v, (∀ s ∈ all, s.island ∈ taken → v ∉ s.island.unknowns) →
    Assoc.find? v session.cache = Assoc.find? v warm.cache

theorem Session.Writes.start (warm : Session α) (all : List (Plan.Solved α)) :
    warm.Writes warm all [] where
  written s _ member := by cases member
  kept _ _ := rfl

/-- An island that is skipped was not solved. -/
theorem Session.Writes.skip (writes : session.Writes warm all taken)
    (solved : plan.solvedAll methods options = .ok all) {island : Island α}
    (faulty : plan.faultsOf island.index ≠ []) :
    session.Writes warm all (taken ++ [island]) where
  written s listed member := by
    rcases List.mem_append.mp member with before | now
    · exact writes.written s listed before
    · obtain ⟨other, sound, done⟩ := mem_of_mapM_eq_ok solved listed
      obtain ⟨rfl, -⟩ := Plan.evaluates_of_solved done
      obtain rfl := List.mem_singleton.mp now
      exact absurd (mem_sound_iff.mp sound).2 faulty
  kept v others := writes.kept v fun s listed before =>
    others s listed (List.mem_append_left _ before)

/-- **Taking in one more island** remembers where it was solved. -/
theorem Session.Writes.take {s : Plan.Solved α} (writes : gathered.session.Writes warm all taken)
    (shape : Pool.SameShape plan.pool gathered.pool)
    (components : Partition.Components plan.pool blocks links plan.islands)
    (islands : partition plan.pool blocks links = .ok plan.islands)
    (solved : plan.solvedAll methods options = .ok all)
    (within : ∀ island ∈ taken, island ∈ plan.islands) (listed : s ∈ all)
    (fresh : s.island ∉ taken) (diagnosis : Diagnosis) :
    (gathered.take warm s diagnosis).session.Writes warm all (taken ++ [s.island]) := by
  obtain ⟨known, evaluates⟩ := Plan.evaluates_of_solvedAll solved listed
  have free := components.unknowns_free s.island known
  have cached : ∀ v, Assoc.find? v (gathered.take warm s diagnosis).session.cache =
      if v ∈ s.island.unknowns then some (s.system.valuation s.outcome.x v)
      else Assoc.find? v gathered.session.cache := by
    intro v
    refine (Assoc.find?_putAll_map gathered.session.cache s.island.unknowns _ v).trans ?_
    split
    · rename_i unknown
      have moved : (gathered.take warm s diagnosis).pool.valuation v = _ :=
        valuation_take shape evaluates (Partition.nodup_unknowns islands known) free v
      rw [if_pos unknown] at moved
      exact congrArg some moved
    · rfl
  constructor
  · intro s' listed' member v unknown
    rw [cached]
    rcases List.mem_append.mp member with before | now
    · -- an island taken in before has no variable of this one
      rw [if_neg, writes.written s' listed' before v unknown]
      intro unknown'
      have same := Partition.island_unique islands (within _ before)
        (List.mem_append_left _ unknown) known (List.mem_append_left _ unknown')
      exact fresh (same ▸ before)
    · have same : s'.island = s.island := List.mem_singleton.mp now
      have done' := Plan.solved_of_mem solved listed'
      rw [same, Plan.solved_of_mem solved listed] at done'
      obtain rfl := Except.ok.inj done'
      rw [if_pos unknown]
  · intro v others
    rw [cached, if_neg (others s listed (by simp))]
    exact writes.kept v fun s' listed' before => others s' listed' (List.mem_append_left _ before)

/-- **What gathering remembers**, whether it gets to the end or not. -/
theorem Session.Writes.gather {stop : Option Failure}
    (components : Partition.Components plan.pool blocks links plan.islands)
    (islands : partition plan.pool blocks links = .ok plan.islands)
    (solved : plan.solvedAll methods options = .ok all)
    (done : Session.gather methods options plan warm all plan.islands
      ⟨plan.pool, warm, [], []⟩ = (final, stop)) :
    ∃ taken rest, plan.islands = taken ++ rest ∧
      (Pool.SameShape plan.pool final.pool ∧ final.session.Writes warm all taken) ∧
        Session.Stops methods options all final.pool rest stop := by
  refine Session.exists_gathered (fun taken gathered => Pool.SameShape plan.pool gathered.pool ∧
    gathered.session.Writes warm all taken) components solved ?_ ?_ ⟨.refl _, .start warm all⟩ done
  · rintro taken gathered island ⟨shape, writes⟩ - faulty
    exact ⟨shape, writes.skip solved faulty⟩
  · rintro taken gathered s diagnosis ⟨shape, writes⟩ within listed - fresh - -
    exact ⟨shape.trans (Pool.sameShape_scatter _ _ _),
      writes.take shape components islands solved within listed fresh diagnosis⟩

end Gathering

/-! ### A solve that returns -/

section Solving

variable {plan : Plan α} {methods : Methods α} {session session' : Session α} {result : Result α}
  {sketch : Sketch α} {v : Variable}

/-- The variable is free in an island that was solved. -/
def Result.Solved (result : Result α) (plan : Plan α) (v : Variable) : Prop :=
  plan.pool.isFree v = true ∧ ∃ report ∈ result.islands, report.status ≠ .skipped ∧
    v ∈ report.unknowns

theorem Told.solved_iff {options : Options α} {warm : Session α} {blocks : List (Block α)}
    {links : List (List Variable)} (told : Told plan methods options warm result)
    (components : Partition.Components plan.pool blocks links plan.islands)
    (islands : partition plan.pool blocks links = .ok plan.islands) :
    result.Solved plan v ↔ ∃ island ∈ plan.sound, v ∈ island.unknowns := by
  constructor
  · rintro ⟨free, report, member, unskipped, inside⟩
    rcases told.report_cases member with ⟨island, known, reported⟩ | ⟨flaw, -, orphan⟩
    · rw [reported.unknowns] at inside
      exact ⟨island, mem_sound_iff.mpr ⟨known, reported.sound unskipped⟩,
        Partition.mem_unknowns_of_free islands known inside free⟩
    · exact absurd orphan.flaws.2.1 unskipped
  · rintro ⟨island, sound, unknown⟩
    obtain ⟨known, faultless⟩ := mem_sound_iff.mp sound
    obtain ⟨report, member, reported⟩ := told.exists_report known
    refine ⟨components.unknowns_free island known v unknown, report, member, ?_, ?_⟩
    · exact fun skipped => reported.skipped_iff.mp skipped faultless
    · rw [reported.unknowns]
      exact List.mem_append_left _ unknown

/-- What a session remembers right after a solve, as compared to the one before. -/
structure Session.Follows (session' session : Session α) (sketch : Sketch α) (plan : Plan α)
    (result : Result α) : Prop where
  /-- nothing is remembered but the variables of live features -/
  live : ∀ v x, Assoc.find? v session'.cache = some x →
    ∃ feature, sketch.feature? v.handle = some feature ∧ v.component ∈ feature.kind.components
  /-- what is free in an island that was solved is remembered where it is reported -/
  told : ∀ v, result.Solved plan v →
    ∃ x, Assoc.find? v session'.cache = some x ∧ result.value? v = some x
  /-- everything else is remembered as before -/
  kept : ∀ v ∈ (Pool.ofSketch sketch).keys, ¬result.Solved plan v →
    Assoc.find? v session'.cache = Assoc.find? v session.cache

/-- **What a solve that returns leaves to the next one.** -/
theorem follows_of_solve {ν : Type} [Ordered ν] {numerals : Numerals ν α} {options : Options ν}
    {drag : Option (Drag α)}
    (done : session.solve numerals methods options sketch drag = (session', .ok result)) :
    ∃ plan, Plan.make sketch (session.seeded sketch) drag = .ok plan ∧
      session'.Follows session sketch plan result := by
  obtain ⟨plan, blocks, make, made, components, told⟩ := exists_told_of_solve done
  obtain ⟨plan', make', carried⟩ := Session.exists_of_solve done
  obtain rfl : plan' = plan := Except.ok.inj (make'.symm.trans make)
  obtain ⟨all, gathered, solved, gathering, -⟩ := exists_of_carryOut carried
  have last : session' = gathered.session := by
    rw [Session.carryOut, solved] at carried
    simp only [gathering] at carried
    rw [← Session.session_addOrphans plan'.orphans gathered]
    exact (Prod.mk.inj carried).1.symm
  obtain ⟨taken, rest, order, ⟨-, writes⟩, stops⟩ :=
    Session.Writes.gather components made.islands solved gathering
  cases stops
  rw [List.append_nil] at order
  rw [← order, ← last] at writes
  have recalls := recalls_of_solve make done
  have solvedIff := fun v => told.solved_iff (v := v) components made.islands
  -- what is not solved for is remembered as before, if its feature is still there
  have kept : ∀ v, ¬result.Solved plan' v → Assoc.find? v session'.cache =
      Assoc.find? v (session.prune (Pool.ofSketch sketch)).cache := by
    intro v unsolved
    refine writes.kept v fun s listed _ unknown => unsolved ((solvedIff v).mpr ?_)
    obtain ⟨island, sound, done⟩ := mem_of_mapM_eq_ok solved listed
    obtain ⟨rfl, -⟩ := Plan.evaluates_of_solved done
    exact ⟨s.island, sound, unknown⟩
  refine ⟨plan', make, ?_, ?_, ?_⟩
  · intro v x found
    rw [← Pool.mem_keys_ofSketch]
    by_cases free : result.Solved plan' v
    · exact made.registered_of_free free.1
    · rw [kept v free, Session.find?_prune] at found
      split at found
      · rename_i registered
        exact Pool.contains_iff.mp registered
      · cases found
  · intro v free
    obtain ⟨island, sound, unknown⟩ := (solvedIff v).mp free
    obtain ⟨known, faultless⟩ := mem_sound_iff.mp sound
    obtain ⟨s, -, value⟩ := told.value island known faultless
    have reported := value v (List.mem_append_left _ unknown)
    exact ⟨_, (recalls.recalled island known faultless v unknown).trans reported, reported⟩
  · intro v registered unsolved
    rw [kept v unsolved, Session.find?_prune, if_pos (Pool.contains_iff.mpr registered)]

end Solving

/-! ### Histories -/

/-- A drawing and the session that solves it. -/
structure Desk (α : Type) where
  sketch : Sketch α
  session : Session α

/-- One thing done to a drawing or its session. -/
inductive Desk.Act (ν α : Type)
  | addFeature (feature : Feature α)
  | addConstraint (constraint : Constraint α)
  | addGroup (group : Group α)
  | deleteFeature (h : Handle)
  | deleteConstraint (h : Handle)
  | apply (values : List (Variable × α))
  | forget
  | forgetFeatures (handles : List Handle)
  | solve (options : Options ν) (drag : Option (Drag α))

namespace Desk

variable {ν : Type} [Ordered ν] {numerals : Numerals ν α} {methods : Methods α}

/-- What is left after one act. A solve leaves its session behind whether it returns or fails. -/
def step (numerals : Numerals ν α) (methods : Methods α) (desk : Desk α) : Act ν α → Desk α
  | .addFeature feature => { desk with sketch := (desk.sketch.addFeature feature).1 }
  | .addConstraint constraint => { desk with sketch := (desk.sketch.addConstraint constraint).1 }
  | .addGroup group => { desk with sketch := desk.sketch.addGroup group }
  | .deleteFeature h => { desk with sketch := (desk.sketch.deleteFeature h).1 }
  | .deleteConstraint h => { desk with sketch := (desk.sketch.deleteConstraint h).1 }
  | .apply values => { desk with sketch := (desk.sketch.apply values).1 }
  | .forget => { desk with session := desk.session.forget }
  | .forgetFeatures handles => { desk with session := desk.session.forgetFeatures handles }
  | .solve options drag =>
    { desk with session := (desk.session.solve numerals methods options desk.sketch drag).1 }

/-- What is left after several acts. -/
def run (numerals : Numerals ν α) (methods : Methods α) (desk : Desk α) (acts : List (Act ν α)) :
    Desk α :=
  acts.foldl (step numerals methods) desk

/-- **No act leads to anything being remembered twice.** -/
theorem distinct_step {desk : Desk α} (distinct : desk.session.Distinct) (act : Act ν α) :
    (desk.step numerals methods act).session.Distinct := by
  cases act with
  | addFeature | addConstraint | addGroup | deleteFeature | deleteConstraint | apply =>
    exact distinct
  | forget => exact Session.distinct_fresh
  | forgetFeatures handles => exact distinct.sublist (List.filter_sublist.map _)
  | solve options drag => exact Session.distinct_solve distinct

/-- **No history does.** -/
theorem distinct_run {desk : Desk α} (distinct : desk.session.Distinct) (acts : List (Act ν α)) :
    (desk.run numerals methods acts).session.Distinct := by
  induction acts generalizing desk with
  | nil => exact distinct
  | cons act acts ih => exact ih (distinct_step distinct act)

end Desk

section Histories

variable {ν : Type} [Ordered ν] {numerals : Numerals ν α} {methods : Methods α}

/-- **What is remembered after any history**: right after each solve that returns, nothing is
remembered twice or of a feature that is gone, each free variable of an island that was solved is
remembered where it was reported, and nothing else has changed. -/
theorem follows_of_run (sketch : Sketch α) (acts : List (Desk.Act ν α)) {desk : Desk α}
    (reached : desk = (Desk.mk sketch .fresh).run numerals methods acts) {options : Options ν}
    {drag : Option (Drag α)} {session' : Session α} {result : Result α}
    (done : desk.session.solve numerals methods options desk.sketch drag =
      (session', .ok result)) :
    session'.Distinct ∧ ∃ plan,
      Plan.make desk.sketch (desk.session.seeded desk.sketch) drag = .ok plan ∧
        session'.Follows desk.session desk.sketch plan result := by
  have distinct : desk.session.Distinct := by
    rw [reached]
    exact Desk.distinct_run Session.distinct_fresh acts
  have distinct' : (desk.session.solve numerals methods options desk.sketch drag).1.Distinct :=
    Session.distinct_solve distinct
  rw [done] at distinct'
  exact ⟨distinct', follows_of_solve done⟩

end Histories

/-! ### A point that is fixed after it was solved for -/

namespace Pinned

/-- A point by itself. -/
noncomputable def spot : Sketch ℝ := ⟨⟨[⟨some (.point 0 0 false), 0⟩]⟩, ⟨[]⟩, []⟩

/-- The point, fixed apart from where it is drawn. -/
noncomputable def pinned : Sketch ℝ := ⟨spot.features, ⟨[⟨some (.fixed ⟨0, 0⟩ ⟨1, 1⟩), 0⟩]⟩, []⟩

/-- The point is remembered where it is drawn. -/
noncomputable def remembered : Session ℝ := ⟨[(⟨⟨0, 0⟩, .x⟩, 0), (⟨⟨0, 0⟩, .y⟩, 0)]⟩

/-- The point is drawn, solved for, and fixed elsewhere. -/
noncomputable def acts : List (Desk.Act ℝ ℝ) :=
  [.addFeature (.point 0 0 false), .solve .real none, .addConstraint (.fixed ⟨0, 0⟩ ⟨1, 1⟩)]

/-- A plan without flaws and without a drag. -/
def plain (pool : Pool ℝ) (islands : List (Island ℝ)) : Plan ℝ :=
  ⟨[], pool, islands, [], [], false, [], []⟩

/-- The plan without the constraint. -/
noncomputable def plan : Plan ℝ := plain (Session.fresh.seeded spot) [Lone.island 0 ⟨0, 0⟩]

/-- The plan with the constraint, which leaves no island. -/
noncomputable def plan' : Plan ℝ :=
  plain ((remembered.seeded pinned).pin ⟨0, 0⟩ ⟨1, 1⟩ ⟨0, 0⟩) []

theorem made : Plan.make spot (Session.fresh.seeded spot) none = .ok plan := by cbv

theorem made' : Plan.make pinned (remembered.seeded pinned) none = .ok plan' := by cbv

/-- The point is found where it is drawn. -/
noncomputable def solved : Plan.Solved ℝ := Lone.stay plan.pool 0 ⟨0, 0⟩ [0, 0]

noncomputable def gathered : Session.Gathered ℝ :=
  (⟨plan.pool, .fresh, [], []⟩ : Session.Gathered ℝ).take .fresh solved Lone.diagnosis

noncomputable def result : Result ℝ :=
  ⟨(Session.addBound plan.islands gathered).updated, gathered.reports, []⟩

theorem solve_spot (methods : Methods ℝ) :
    Session.fresh.solve ⟨id, fun _ => ""⟩ methods Options.real spot none =
      (remembered, .ok result) := by
  obtain ⟨values, registered⟩ :
      ∃ values, islandValues plan.pool (Lone.island 0 ⟨0, 0⟩) = .ok values := ⟨_, by cbv⟩
  have stays : plan.solved methods Options.real (Lone.island 0 ⟨0, 0⟩) = .ok solved :=
    Lone.solved methods rfl rfl registered (by cbv)
  have all : plan.solvedAll methods Options.real = .ok [solved] :=
    mapM_eq_ok_iff.mpr (.cons stays .nil)
  have gathering : Session.gather methods Options.real plan .fresh [solved] plan.islands
      ⟨plan.pool, .fresh, [], []⟩ = (gathered, none) :=
    Session.gather_cons_of_sound rfl rfl (Lone.diagnosed methods _ _ _ _)
  have pruned : Session.fresh.prune (Pool.ofSketch spot) = Session.fresh := rfl
  rw [Session.solve_of_isUsable Options.isUsable_real made, pruned]
  exact Session.carryOut_of_gather all gathering rfl

/-- What is left once the point is fixed. -/
theorem run_eq (methods : Methods ℝ) :
    (Desk.mk Sketch.empty .fresh).run ⟨id, fun _ => ""⟩ methods acts = ⟨pinned, remembered⟩ := by
  have last : (Desk.mk spot .fresh).step ⟨id, fun _ => ""⟩ methods (.solve Options.real none) =
      ⟨spot, remembered⟩ := by
    rw [Desk.step, solve_spot]
  exact congrArg (fun desk : Desk ℝ => desk.step ⟨id, fun _ => ""⟩ methods
    (.addConstraint (ν := ℝ) (.fixed ⟨0, 0⟩ ⟨1, 1⟩))) last

theorem solve_pinned (methods : Methods ℝ) :
    remembered.solve ⟨id, fun _ => ""⟩ methods Options.real pinned none =
      (remembered, .ok ⟨[(⟨⟨0, 0⟩, .x⟩, 1), (⟨⟨0, 0⟩, .y⟩, 1)], [], []⟩) := by
  have pruned : remembered.prune (Pool.ofSketch pinned) = remembered := by cbv
  have gathering : Session.gather methods Options.real plan' remembered [] []
      ⟨plan'.pool, remembered, [], []⟩ = (⟨plan'.pool, remembered, [], []⟩, none) := rfl
  have carried : remembered.carryOut methods Options.real plan' = _ :=
    Session.carryOut_of_gather rfl gathering rfl
  rw [Session.solve_of_isUsable Options.isUsable_real made', pruned]
  refine carried.trans ?_
  cbv

end Pinned

/-- With a solve behind it, the next one keeps what is remembered of the point that was fixed in
between. The first solve of all has the island of the point to remember. -/
theorem follows_of_run_pinned :
    (∃ desk session' result plan,
      desk = (Desk.mk Sketch.empty .fresh).run ⟨id, fun _ => ""⟩ .orthogonal Pinned.acts ∧
      desk.session.cache ≠ [] ∧
      desk.session.solve ⟨id, fun _ => ""⟩ .orthogonal Options.real desk.sketch none =
        (session', .ok result) ∧
      session'.Distinct ∧ session'.Follows desk.session desk.sketch plan result) ∧
    ∃ desk session' result plan,
      desk = (Desk.mk Sketch.empty .fresh).run ⟨id, fun _ => ""⟩ .orthogonal
        [Desk.Act.addFeature (ν := ℝ) (.point 0 0 false)] ∧
      desk.session.solve ⟨id, fun _ => ""⟩ .orthogonal Options.real desk.sketch none =
        (session', .ok result) ∧
      plan.islands ≠ [] ∧ session'.Follows desk.session desk.sketch plan result := by
  constructor
  · have reached := (Pinned.run_eq .orthogonal).symm
    have done := Pinned.solve_pinned .orthogonal
    obtain ⟨distinct, plan, -, follows⟩ := follows_of_run Sketch.empty Pinned.acts reached done
    exact ⟨_, _, _, plan, reached, List.cons_ne_nil _ _, done, distinct, follows⟩
  · have reached : (⟨Pinned.spot, .fresh⟩ : Desk ℝ) =
        (Desk.mk Sketch.empty .fresh).run ⟨id, fun _ => ""⟩ .orthogonal
          [Desk.Act.addFeature (ν := ℝ) (.point 0 0 false)] := rfl
    have done := Pinned.solve_spot .orthogonal
    obtain ⟨-, plan, made, follows⟩ := follows_of_run Sketch.empty _ reached done
    obtain rfl := Except.ok.inj (Pinned.made.symm.trans made)
    exact ⟨_, _, _, _, reached, done, List.cons_ne_nil _ _, follows⟩

/-- **What is remembered can be older than what was last reported.** A point is solved for and then
fixed elsewhere: the next solve reports where it is fixed, and it is still remembered where it was
free. -/
theorem exists_outdated :
    ∃ (acts : List (Desk.Act ℝ ℝ)) (desk : Desk ℝ) (session' : Session ℝ) (result : Result ℝ)
      (v : Variable), desk = (Desk.mk Sketch.empty .fresh).run ⟨id, fun _ => ""⟩ .orthogonal acts ∧
      desk.session.solve ⟨id, fun _ => ""⟩ .orthogonal Options.real desk.sketch none =
        (session', .ok result) ∧
      Assoc.find? v session'.cache = some 0 ∧ result.value? v = some 1 := by
  refine ⟨Pinned.acts, _, _, _, ⟨⟨0, 0⟩, .x⟩, (Pinned.run_eq _).symm, Pinned.solve_pinned _, ?_, ?_⟩
  · rfl
  · rfl

end PlaneSketch
