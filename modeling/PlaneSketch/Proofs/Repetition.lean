import Mathlib
import PlaneSketch.Proofs.Memory
import PlaneSketch.Sketch.Edit

/-!
Solving again.

A drawing that was solved can be solved again from where it was left: in the same session, or with
the positions found drawn in. A descent starts by asking what the last one asked at its end, so
that an island that has converged is not moved.

* `sameOutline_apply`, `drawn?_apply`: drawing positions in changes these numbers and nothing else.
* `Plan.Resumes.outcome`: an island that starts where it converged stays there.
* `repeats_of_solve`: whatever converged is found again in no steps, in the same session and with
  the positions drawn in.
-/

namespace PlaneSketch

/-! ### Changing one item -/

namespace Arena

variable {τ σ : Type}

/-- The item of a handle is replaced; all others are as before. -/
theorem get?_update (arena : Arena τ) (h : Handle) (change : τ → τ) (k : Handle) :
    (arena.update h change).get? k =
      if k = h then (arena.get? h).map change else arena.get? k := by
  unfold update
  split
  · rename_i live
    obtain ⟨item, named⟩ := Option.isSome_iff_exists.mp live
    obtain ⟨place, slot, found, held, rfl⟩ := mem_itemsFrom.mp (mem_items_iff.mpr named)
    rw [named]
    simp only [Nat.zero_add, Int.toNat_natCast]
    unfold get? slot?
    by_cases below : k.index < 0
    · have other : k ≠ ⟨place, slot.generation⟩ := by
        rintro rfl
        simp at below
        omega
      simp [below, other]
    · rw [if_neg below, if_neg below, List.getElem?_modify, Option.map_eq_map]
      by_cases same : place = k.index.toNat
      · have here : k = ⟨place, slot.generation⟩ ↔ (slot.generation : Int) = k.generation := by
          have index : (place : Int) = k.index := by omega
          rw [index]
          exact ⟨fun same => by rw [same], fun same => by rw [same]⟩
        rw [← same, found]
        simp only [if_true, Option.map_some, held, here]
        split <;> simp_all
      · have other : k ≠ ⟨place, slot.generation⟩ := by
          rintro rfl
          simp at same
        simp [same, other]
  · rename_i dead
    have none : arena.get? h = none := by simpa [isLive] using dead
    split
    · rename_i same
      rw [same, none]
      rfl
    · rfl

/-- What a change leaves of an item is left of all items. -/
theorem map_update {change : τ → τ} {read : τ → σ} (kept : ∀ item, read (change item) = read item)
    (arena : Arena τ) (h : Handle) : (arena.update h change).map read = arena.map read := by
  unfold update map
  split
  · rw [Arena.mk.injEq]
    refine List.ext_getElem? fun i => ?_
    rw [List.getElem?_map, List.getElem?_map, List.getElem?_modify, Option.map_eq_map,
      Option.map_map]
    congr 1
    funext slot
    simp only [Function.comp_apply]
    split <;> simp [Function.comp_def, kept]
  · rfl

end Arena

/-! ### Drawing positions in -/

namespace Sketch

variable {α : Type} {sketch other third : Sketch α}

theorem SameOutline.trans (same : sketch.SameOutline other) (same' : other.SameOutline third) :
    sketch.SameOutline third :=
  ⟨same'.features.trans same.features, same'.constraints.trans same.constraints⟩

/-- The drawing with one number of a feature replaced. -/
def redrawn (sketch : Sketch α) (v : Variable) (value : α) : Sketch α :=
  { sketch with features := sketch.features.update v.handle (·.withValue v.component value) }

theorem apply_eq (sketch : Sketch α) (values : List (Variable × α)) :
    (sketch.apply values).1 =
      values.foldl (fun drawn pair => drawn.redrawn pair.1 pair.2) sketch := by
  unfold apply
  -- the count of changes starts anywhere
  generalize (0 : Nat) = count
  induction values generalizing sketch count with
  | nil => rfl
  | cons pair values ih =>
    rw [List.foldl_cons, List.foldl_cons]
    dsimp only
    split
    · exact ih _ _
    · rename_i dead
      have kept : sketch.redrawn pair.1 pair.2 = sketch := by
        have still : sketch.features.update pair.1.handle
            (·.withValue pair.1.component pair.2) = sketch.features := if_neg dead
        rw [redrawn, still]
      rw [kept]
      exact ih _ _

theorem sameOutline_redrawn (sketch : Sketch α) (v : Variable) (value : α) :
    sketch.SameOutline (sketch.redrawn v value) where
  features := by
    refine Arena.map_update (fun feature => ?_) _ _
    cases v.component <;> rfl
  constraints := rfl

/-- **Drawing positions in changes no outline.** -/
theorem sameOutline_apply (sketch : Sketch α) (values : List (Variable × α)) :
    sketch.SameOutline (sketch.apply values).1 := by
  rw [apply_eq]
  induction values generalizing sketch with
  | nil => exact .refl sketch
  | cons pair values ih => exact (sameOutline_redrawn sketch pair.1 pair.2).trans (ih _)

theorem drawn?_redrawn (sketch : Sketch α) (v w : Variable) (value : α) :
    (sketch.redrawn v value).drawn? w =
      if w = v then (sketch.drawn? w).map fun _ => value else sketch.drawn? w := by
  obtain ⟨h, component⟩ := v
  obtain ⟨k, component'⟩ := w
  rw [drawn?, drawn?, feature?, feature?, redrawn, Arena.get?_update]
  by_cases same : k = h
  · subst same
    rw [if_pos rfl, Option.map_map, Option.map_map]
    cases component <;> cases component' <;> simp <;> rfl
  · rw [if_neg same, if_neg fun both => same (congrArg Variable.handle both)]

/-- **Each variable is drawn where it was found**, and the others stay. -/
theorem drawn?_apply {values : List (Variable × α)} (once : (values.map (·.1)).Nodup)
    (sketch : Sketch α) (v : Variable) : (sketch.apply values).1.drawn? v =
      (sketch.drawn? v).map fun drawn => (Assoc.find? v values).getD drawn := by
  rw [apply_eq]
  induction values generalizing sketch with
  | nil => simp [Assoc.find?]
  | cons pair values ih =>
    rw [List.map_cons, List.nodup_cons] at once
    rw [List.foldl_cons, ih once.2, drawn?_redrawn, Assoc.find?]
    by_cases same : v = pair.1
    · subst same
      have later : Assoc.find? pair.1 values = none := Assoc.find?_eq_none_iff.mpr once.1
      rw [if_pos rfl, if_pos rfl, later, Option.map_map]
      rfl
    · rw [if_neg same, if_neg (Ne.symm same)]

end Sketch

/-! ### Starting where an island converged -/

section Resuming

variable {α : Type} [Scalar α] {plan plan' : Plan α} {methods : Methods α} {options : Options α}
  {s s' : Plan.Solved α} {blocks : List (Block α)} {links : List (List Variable)}

/-- In the second plan nothing is dragged, and an island starts where the first one left it. -/
structure Plan.Resumes (plan plan' : Plan α) (s : Plan.Solved α) : Prop where
  agrees : plan.Agrees plan'
  undragged : plan'.dragging = false
  unpulled : plan'.targets = []
  start : ∀ v ∈ s.island.unknowns, plan'.pool.valuation v = s.system.valuation s.outcome.x v

/-- **An island that starts where it converged stays there**, whatever the drag that it was solved
under. -/
theorem Plan.Resumes.outcome (resumes : plan.Resumes plan' s)
    (components : Partition.Components plan.pool blocks links plan.islands)
    (islands : partition plan.pool blocks links = .ok plan.islands)
    (known : s.island ∈ plan.islands) (evaluates : plan.Evaluates options s)
    (converged : s.outcome.converged = true)
    (done' : plan'.solved methods options s.island = .ok s') :
    s'.outcome = { s.outcome with iterations := 0 } := by
  obtain ⟨-, -, solved⟩ := Plan.exists_of_solved done'
  obtain ⟨x, steps, wide, outcome⟩ := evaluates.outcome
  have start : s.island.unknowns.map plan'.pool.valuation = x := by
    have position : s.outcome.x = x := by rw [outcome]; rfl
    rw [List.map_congr_left resumes.start, position, evaluates.system]
    exact Equations.map_valuation (Partition.nodup_unknowns islands known) wide
  have target : plan'.target? s.island.index = none := by
    rw [Plan.target?, resumes.unpulled]
    rfl
  rw [Plan.outcomeAt_optionsFor] at outcome
  rw [outcome] at converged
  rw [Plan.optionsFor_of_undragged resumes.undragged, Plan.pull?_of_target? target, start,
    (resumes.agrees.same_system components known).solve] at solved
  have system : s.system = plan.system s.island := evaluates.system
  rw [← system, Equations.solve_of_converged methods converged] at solved
  rw [outcome]
  exact (Except.ok.inj solved).symm

end Resuming

/-! ### A whole solve -/

/-- What the first result says of an island that converged is said again, and found in no steps. -/
def Result.Repeats {α : Type} (result again : Result α) : Prop :=
  ∀ report ∈ result.islands, report.status.isConverged = true →
    (∃ report' ∈ again.islands,
      { report with iterations := 0, warmStarted := report'.warmStarted } = report') ∧
    ∀ v ∈ report.unknowns, ∃ value, result.value? v = some value ∧ again.value? v = some value

section Solving

variable {α : Type} [Scalar α] {ν : Type} [Ordered ν] {numerals : Numerals ν α}
  {methods : Methods α} {options : Options ν} {sketch other : Sketch α} {drag : Option (Drag α)}
  {session session' later later' : Session α} {result again : Result α} {plan : Plan α}

/-- **What is said of an island that starts where it converged is said again**, with the same
values. -/
theorem Plan.Resumes.repeats {settings : Options α} {blocks : List (Block α)}
    {links : List (List Variable)} {plan' : Plan α} {s : Plan.Solved α} {warm warm' : Session α}
    {report : Report α} (resumes : plan.Resumes plan' s)
    (told : Told plan methods settings warm result)
    (told' : Told plan' methods settings warm' again)
    (components : Partition.Components plan.pool blocks links plan.islands)
    (islands : partition plan.pool blocks links = .ok plan.islands)
    (known : s.island ∈ plan.islands) (sound : plan.faultsOf s.island.index = [])
    (solved : plan.solved methods settings s.island = .ok s)
    (reported : Reported plan methods settings warm s.island report)
    (converged : report.status.isConverged = true) :
    (∃ report' ∈ again.islands,
      { report with iterations := 0, warmStarted := report'.warmStarted } = report') ∧
    ∀ v ∈ report.unknowns, ∃ value, result.value? v = some value ∧ again.value? v = some value := by
  have agrees := resumes.agrees
  have known' : s.island ∈ plan'.islands := agrees.islands ▸ known
  have reached : s.outcome.converged = true :=
    (reported.of_solved sound solved).2.1.symm.trans converged
  have unskipped : report.status ≠ .skipped :=
    fun skipped => reported.skipped_iff.mp skipped sound
  obtain ⟨s', solved', values'⟩ := told'.value s.island known' ((agrees.faultsOf _).trans sound)
  obtain ⟨-, evaluates⟩ := Plan.evaluates_of_solved solved
  have outcome := resumes.outcome components islands known evaluates reached solved'
  constructor
  · obtain ⟨report', placed', reported'⟩ := told'.exists_report known'
    exact ⟨report', placed', agrees.report_eq components known solved solved' outcome reported
      reported' unskipped⟩
  · intro v inside
    rw [reported.unknowns] at inside
    have position : s'.outcome.x = s.outcome.x := by rw [outcome]
    obtain ⟨t, solvedAgain, values⟩ := told.value s.island known sound
    obtain rfl : s = t := Except.ok.inj (solved.symm.trans solvedAgain)
    refine ⟨_, values v inside, ?_⟩
    rw [values' v inside, agrees.value_eq islands known solved solved' position inside]

/-- A drawing with the same outline, solved from where the first solve left each island. -/
theorem repeats_of_seed? (make : Plan.make sketch (session.seeded sketch) drag = .ok plan)
    (done : session.solve numerals methods options sketch drag = (session', .ok result))
    (outline : sketch.SameOutline other) (distinct : later.Distinct)
    (seed : ∀ island ∈ plan.islands, plan.faultsOf island.index = [] → ∀ v ∈ island.unknowns,
      later.seed? other v = result.value? v)
    (done' : later.solve numerals methods options other none = (later', .ok again)) :
    result.Repeats again := by
  obtain ⟨plan₀, blocks, make₀, made, components, told⟩ := exists_told_of_solve done
  obtain rfl : plan₀ = plan := Except.ok.inj (make₀.symm.trans make)
  obtain ⟨plan', blocks', make', made', components', told'⟩ := exists_told_of_solve done'
  have agrees := made.agrees_of_seeded outline made'
  obtain ⟨dragging, -, targets⟩ := Plan.drag_of_make make'
  intro report member converged
  have unskipped : report.status ≠ .skipped := by
    intro skipped
    rw [skipped] at converged
    cases converged
  rcases told.report_cases member with ⟨island, known, reported⟩ | ⟨flaw, -, orphan⟩
  · have sound := reported.sound unskipped
    obtain ⟨s, solved, values⟩ := told.value island known sound
    obtain ⟨rfl, -⟩ := Plan.evaluates_of_solved solved
    have start : ∀ v ∈ s.island.unknowns,
        plan'.pool.valuation v = s.system.valuation s.outcome.x v := by
      intro v unknown
      have free : plan'.pool.isFree v = true :=
        (agrees.shape.isFree v).trans (components.unknowns_free s.island known v unknown)
      have seeded := made'.seed?_eq distinct free
      rw [seed s.island known sound v unknown, values v (List.mem_append_left _ unknown),
        Option.some.injEq] at seeded
      exact seeded.symm
    have resumes : plan₀.Resumes plan' s := ⟨agrees, dragging, targets, start⟩
    exact resumes.repeats told told' components made.islands known sound solved reported converged
  · exact absurd orphan.flaws.2.1 unskipped

/-- **Solving again changes nothing that converged.** For every drawing, all settings that pass the
check, every drag and whatever is remembered, the next solve without a drag, in the same session or
of the drawing with the positions found drawn in, says of each island that converged what the
first one said, with the same values, and takes no step on it. -/
theorem repeats_of_solve (distinct : session.Distinct)
    (done : session.solve numerals methods options sketch drag = (session', .ok result)) :
    (∀ session'' again,
      session'.solve numerals methods options sketch none = (session'', .ok again) →
        result.Repeats again) ∧
    ∀ again,
      Sketch.solve numerals methods options (sketch.apply result.updated).1 none = .ok again →
        result.Repeats again := by
  obtain ⟨plan, blocks, make, made, components, told⟩ := exists_told_of_solve done
  have recalls := recalls_of_solve make done
  have kept : (session.solve numerals methods options sketch drag).1.Distinct :=
    Session.distinct_solve distinct
  rw [done] at kept
  constructor
  · intro session'' again done'
    refine repeats_of_seed? make done (.refl sketch) kept ?_ done'
    intro island known sound v unknown
    obtain ⟨s, -, values⟩ := told.value island known sound
    rw [Session.seed?, recalls.recalled island known sound v unknown,
      values v (List.mem_append_left _ unknown)]
    rfl
  · intro again done'
    refine repeats_of_seed? make done (sketch.sameOutline_apply result.updated)
      Session.distinct_fresh ?_ (Prod.ext rfl done')
    intro island known sound v unknown
    obtain ⟨s, -, values⟩ := told.value island known sound
    have registered := made.registered_of_free (components.unknowns_free island known v unknown)
    have drawn : Session.fresh.seed? (sketch.apply result.updated).1 v =
        (sketch.apply result.updated).1.drawn? v := rfl
    have found := values v (List.mem_append_left _ unknown)
    rw [drawn, Sketch.drawn?_apply recalls.once, Pool.valuation_ofSketch registered,
      Option.map_some, ← Result.value?, found]
    rfl

end Solving

/-! ### A drawing solved three times -/

namespace Levelled

/-- The points drawn where they were found. -/
noncomputable def applied : Sketch ℝ where
  features := ⟨[⟨some (.point 0 0 false), 0⟩, ⟨some (.point 1 0 false), 0⟩,
    ⟨some (.line ⟨0, 0⟩ ⟨1, 0⟩ false), 0⟩]⟩
  constraints := levelled.constraints
  groups := []

theorem applied_eq : (levelled.apply result.updated).1 = applied := by
  have updated : result.updated = [(⟨⟨1, 0⟩, .x⟩, 1), (⟨⟨1, 0⟩, .y⟩, 0), (⟨⟨0, 0⟩, .x⟩, 0),
    (⟨⟨0, 0⟩, .y⟩, 0)] := rfl
  rw [updated]
  cbv

/-- What is found in the drawing with the positions drawn in. -/
noncomputable def again : Result ℝ :=
  ⟨(Session.addBound [island] (taken .fresh)).updated, (taken .fresh).reports, []⟩

theorem solve_applied_eq :
    Sketch.solve ⟨id, fun _ => ""⟩ Methods.orthogonal settings applied none = .ok again := by
  have pruned : (Session.fresh : Session ℝ).prune (Pool.ofSketch applied) = .fresh := rfl
  have made : Plan.make applied ((Pool.ofSketch applied).seed
      (Session.fresh.prune (Pool.ofSketch applied)).cache).1 none = .ok plan := by
    cbv
  have solved : Session.fresh.solve ⟨id, fun _ => ""⟩ Methods.orthogonal settings applied none =
      ((taken .fresh).session, .ok again) := by
    have usable : settings.isUsable = true := Options.isUsable_real
    rw [Session.solve_of_isUsable usable made, pruned]
    exact carryOut_eq .fresh
  rw [Sketch.solve, solved]

end Levelled

theorem repeats_of_solve_levelled :
    Levelled.remembered.Distinct ∧
    Levelled.remembered.solve ⟨id, fun _ => ""⟩ Methods.orthogonal Levelled.settings levelled none =
      (Levelled.gathered.session, .ok Levelled.result) ∧
    (∃ report ∈ Levelled.result.islands, report.status.isConverged = true) ∧
    (∃ session'' again, Levelled.gathered.session.solve ⟨id, fun _ => ""⟩ Methods.orthogonal
      Levelled.settings levelled none = (session'', .ok again) ∧
        Levelled.result.Repeats again) ∧
    ∃ again, Sketch.solve ⟨id, fun _ => ""⟩ Methods.orthogonal Levelled.settings
      (levelled.apply Levelled.result.updated).1 none = .ok again ∧
        Levelled.result.Repeats again := by
  have distinct : Levelled.remembered.Distinct := by
    simp [Session.Distinct, Levelled.remembered]
  -- the session remembers what it remembered before
  have warm : Levelled.gathered.session.solve ⟨id, fun _ => ""⟩ Methods.orthogonal
      Levelled.settings levelled none = (Levelled.gathered.session, .ok Levelled.result) :=
    Levelled.solve_eq
  have drawn : Sketch.solve ⟨id, fun _ => ""⟩ Methods.orthogonal Levelled.settings
      (levelled.apply Levelled.result.updated).1 none = .ok Levelled.again := by
    rw [Levelled.applied_eq]
    exact Levelled.solve_applied_eq
  obtain ⟨repeats, repeats'⟩ := repeats_of_solve distinct Levelled.solve_eq
  exact ⟨distinct, Levelled.solve_eq, ⟨_, List.mem_singleton_self _, rfl⟩,
    ⟨_, _, warm, repeats _ _ warm⟩, _, drawn, repeats' _ drawn⟩

end PlaneSketch
