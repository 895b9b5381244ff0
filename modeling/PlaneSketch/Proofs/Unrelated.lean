import Mathlib
import PlaneSketch.Proofs.Isolation
import PlaneSketch.Proofs.Joint
import PlaneSketch.Proofs.Planning

/-!
Unrelated geometry does not change a solution.

One drawing is appended to another, and everything is done for both together. The first drawing is
`Within` the joint one, so that its islands are there among strangers, with its flaws, its anchors
and its starting positions.

* `exists_recurs`: every island of the drawing recurs in the plan for the joint one.
* `orphans_within`: so does every flaw that belongs to no island.
* `recurs_of_solve`: both drawings solved together give the first one the values and the reports
  that it has by itself, with whatever flaws either of them has.
-/

namespace PlaneSketch

variable {α : Type}

/-! ### What is remembered -/

namespace Sketch.Within

variable {sketch joint : Sketch α} {features : List (Handle × Feature α)}
  {constraints : List (Handle × Constraint α)} {v : Variable} {h : Handle}
  (within : sketch.Within joint features constraints)

include within

theorem contains_ofSketch (live : sketch.isLive v.handle = true) :
    (Pool.ofSketch joint).contains v = (Pool.ofSketch sketch).contains v :=
  within.prolongs_ofSketch.contains_eq live

/-- **A solve of the joint drawing starts the drawing where a solve by itself does.** -/
theorem prolongs_seeded [Scalar α] (session : Session α) :
    sketch.Prolongs (session.seeded sketch) (session.seeded joint) := by
  have whole : ∀ drawn : Sketch α,
      session.seeded drawn = ((Pool.ofSketch drawn).seed session.cache).1 := fun drawn =>
    Pool.seed_filter _ (fun v free => Pool.contains_iff.mpr (Pool.mem_keys_of_isFree free)) _
  rw [whole, whole]
  exact within.prolongs_ofSketch.seed session.cache

theorem remembers_eq [Scalar α] (session : Session α) (live : sketch.isLive v.handle = true) :
    (session.prune (Pool.ofSketch joint)).remembers v =
      (session.prune (Pool.ofSketch sketch)).remembers v := by
  rw [Session.remembers, Session.remembers, Session.find?_prune, Session.find?_prune,
    within.contains_ofSketch live]

/-- A feature of the drawing has the same anchors in both. -/
theorem dragAnchors_eq (live : sketch.isLive h = true) :
    joint.dragAnchors h = sketch.dragAnchors h := by
  rw [dragAnchors, dragAnchors, liveFeature, liveFeature, within.feature?_of_live live]

end Sketch.Within

/-! ### Two plans -/

section Plans

variable [Scalar α] {sketch joint : Sketch α} {features : List (Handle × Feature α)}
  {constraints : List (Handle × Constraint α)} {start start' : Pool α} {drag : Option (Drag α)}
  {plan plan' : Plan α} {blocks blocks' : List (Block α)} {island other : Island α}

/-- What was compiled for a closed drawing reads its features alone. -/
theorem Plan.Made.isLive_of_read (made : Plan.Made sketch start plan blocks) {block : Block α}
    (given : block ∈ blocks) {v : Variable} (read : v ∈ block.unknowns) :
    sketch.isLive v.handle = true := by
  obtain ⟨feature, found, -⟩ := (Sketch.stands_of_compiled made.compiled given).registered read
  exact Sketch.isLive_iff.mpr ⟨feature, found⟩

/-- What is dragged is there. -/
theorem Plan.isLive_of_drag (make : Plan.make sketch start drag = .ok plan) {d : Drag α}
    (dragged : d ∈ drag) : sketch.isLive d.feature = true := by
  obtain rfl : drag = some d := dragged
  obtain ⟨-, pulls⟩ := Plan.drag_of_make make
  obtain ⟨feature, found, -⟩ := bind_eq_ok_iff.mp pulls
  rw [Sketch.liveFeature] at found
  split at found
  · rename_i feature' found'
    exact Sketch.isLive_iff.mpr ⟨feature', found'⟩
  · cases found

/-- The anchors of a plan are features of the drawing. -/
theorem Plan.isLive_of_anchor (make : Plan.make sketch start drag = .ok plan) {h : Handle}
    (anchor : h ∈ plan.anchors) : sketch.isLive h = true := by
  have alive := fun d => Plan.isLive_of_drag (d := d) make
  obtain ⟨-, pulls⟩ := Plan.drag_of_make make
  cases drag with
  | none =>
    rw [pulls.1] at anchor
    cases anchor
  | some drag =>
    rcases Plan.dragged_cases pulls with ⟨-, none, -⟩ | ⟨sound, listed, -⟩
    · rw [none] at anchor
      cases anchor
    · obtain ⟨feature, found⟩ := Sketch.isLive_iff.mp (alive drag rfl)
      obtain ⟨anchors, listed', points⟩ := Sketch.exists_dragAnchors found sound
      rw [listed, Except.ok.injEq] at listed'
      obtain ⟨feature, found, -⟩ := points h (listed' ▸ anchor)
      exact Sketch.isLive_iff.mpr ⟨feature, found⟩

variable (within : sketch.Within joint features constraints)
  (prolongs : sketch.Prolongs start start') (made : Plan.Made sketch start plan blocks)
  (made' : Plan.Made joint start' plan' blocks')

include within prolongs made made'

/-- **What is to be grouped for the drawing stands among strangers** in the joint plan. -/
theorem among_of_made : Partition.Among sketch plan.pool plan'.pool blocks blocks'
    (sketch.flaws.map (Plan.touched sketch plan.pool))
    (joint.flaws.map (Plan.touched joint plan'.pool)) := by
  obtain ⟨prolongs, woven⟩ := within.compiled_woven prolongs made.compiled made'.compiled
  refine ⟨prolongs, woven, within.touched_woven prolongs,
    fun _ given _ => made.isLive_of_read given, fun link given v member => ?_⟩
  obtain ⟨flaw, -, rfl⟩ := List.mem_map.mp given
  exact (Sketch.mem_closure_iff.mp member).2.1

variable {links links' : List (List Variable)}
  (components : Partition.Components plan.pool blocks links plan.islands)
  (components' : Partition.Components plan'.pool blocks' links' plan'.islands)

include components components' in
/-- **An island has the same flaws** in the joint plan: those of strangers lie elsewhere. -/
theorem faultsOf_within (known : island ∈ plan.islands) (known' : other ∈ plan'.islands)
    (members : other.members = island.members) :
    plan'.faultsOf other.index = plan.faultsOf island.index := by
  have among := among_of_made within prolongs made made'
  rw [made'.faultsOf_eq, made.faultsOf_eq]
  have touched_eq : ∀ flaw ∈ sketch.flaws,
      Plan.touched joint plan'.pool flaw = Plan.touched sketch plan.pool flaw := fun flaw flawed =>
    within.closure_within among.prolongs (within.isLive_of_flaw flawed)
  refine within.flaws_woven.filter_eq (fun flaw flawed => ?_) fun flaw foreign => ?_
  · rw [decide_eq_decide,
      made'.homeOf?_eq_index_iff components' (within.flaws_woven.subset flawed) known',
      made.homeOf?_eq_index_iff components flawed known, touched_eq flaw flawed,
      among.counting_eq (List.mem_map_of_mem flawed), members]
  · rw [decide_eq_false_iff_not]
    intro home
    obtain ⟨v, touches, third, known'', number, inside⟩ := Plan.exists_of_home? made'.islands home
    obtain rfl := island_eq_of_index_eq components' known'' known' number
    have outside := within.outside_of_mem_closure foreign.references touches
    have live := among.prolongs.own v
      (Partition.mem_keys_of_mem made.islands known (members ▸ inside))
    rw [live] at outside
    cases outside

/-- **A flaw that belongs to no island** belongs to none in the joint plan. -/
theorem orphans_within : plan.orphans ⊆ plan'.orphans := by
  have among := among_of_made within prolongs made made'
  intro flaw orphan
  rw [made.orphans_eq, List.mem_filter, Option.isNone_iff_eq_none] at orphan
  obtain ⟨flawed, homeless⟩ := orphan
  have flawed' := within.flaws_woven.subset flawed
  rw [made'.orphans_eq, List.mem_filter, Option.isNone_iff_eq_none]
  refine ⟨flawed', ?_⟩
  cases home : plan'.homeOf? joint flaw with
  | none => rfl
  | some index =>
    obtain ⟨other, known', -, v, counts, inside⟩ := (made'.homeOf?_eq_some_iff flawed').mp home
    have given := List.mem_map_of_mem (f := Plan.touched sketch plan.pool) flawed
    have same : Plan.touched joint plan'.pool flaw = Plan.touched sketch plan.pool flaw :=
      within.closure_within among.prolongs (within.isLive_of_flaw flawed)
    rw [same, among.counting_eq given] at counts
    have live := among.own_links _ given v (Partition.mem_counting_iff.mp counts).1
    obtain ⟨island, known, inside'⟩ :=
      among.exists_island_of_mem made.islands made'.islands known' inside live
    have home' := (made.homeOf?_eq_some_iff flawed).mpr ⟨island, known, rfl, v, counts, inside'⟩
    rw [homeless] at home'
    cases home'

include components components' in
/-- **Every island of the drawing recurs in the joint plan.** -/
theorem exists_recurs (make : Plan.make sketch start drag = .ok plan)
    (make' : Plan.make joint start' drag = .ok plan') (known : island ∈ plan.islands) :
    ∃ other ∈ plan'.islands, plan.Recurs plan' island other := by
  have among := among_of_made within prolongs made made'
  obtain ⟨other, known', renumbered⟩ := among.exists_island made.islands made'.islands known
  have members : other.members = island.members := by
    rw [← renumbered]
    rfl
  obtain ⟨dragging, anchors, target⟩ := Plan.drag_eq make make'
    (fun d dragged =>
      within.mem_brokenFeatures_iff within.flaws_woven (Plan.isLive_of_drag make dragged))
    (fun d dragged => within.dragAnchors_eq (Plan.isLive_of_drag make dragged))
    (fun h anchor =>
      have live := Plan.isLive_of_anchor make anchor
      ⟨among.prolongs.point_eq live, among.prolongs.isFree_eq live⟩)
    made.islands components made'.islands components'
  have read : ∀ block ∈ island.blocks, ∀ v ∈ block.unknowns, sketch.isLive v.handle = true :=
    fun block listed v => made.isLive_of_read ((components.blocks_order island known).subset listed)
  exact ⟨other, known', {
    renumbered, dragging, anchors
    target := target island known other known' members
    faults := faultsOf_within within prolongs made made' components components' known known' members
    members_stand := fun v inside => among.prolongs.valuation_eq
      (among.prolongs.own v (Partition.mem_keys_of_mem made.islands known inside))
    blocks_stand := fun block listed v reads =>
      among.prolongs.valuation_eq (read block listed v reads)
    bindings := fun block listed v reads =>
      among.prolongs.binding?_eq (read block listed v reads) }⟩

end Plans

/-! ### Two solves -/

/-- The joint result says the same of the drawing: each of its variables has the same value or none
in both, and each report is there, perhaps under another number. -/
structure Result.RecursIn [Scalar α] (result joint : Result α) (sketch : Sketch α) : Prop where
  value : ∀ v, sketch.isLive v.handle = true → joint.value? v = result.value? v
  report : ∀ report ∈ result.islands,
    ∃ report' ∈ joint.islands, { report' with index := report.index } = report

section Solving

variable [Scalar α] {ν : Type} [Ordered ν] {numerals : Numerals ν α} {methods : Methods α}
  {options : Options ν} {drag : Option (Drag α)} {session session' session'' : Session α}
  {result result' : Result α} {sketch joint other : Sketch α}
  {features : List (Handle × Feature α)} {constraints : List (Handle × Constraint α)}

theorem Sketch.Within.recursIn (within : sketch.Within joint features constraints)
    (done : session.solve numerals methods options sketch drag = (session', .ok result))
    (done' : session.solve numerals methods options joint drag = (session'', .ok result')) :
    result.RecursIn result' sketch := by
  obtain ⟨plan, blocks, make, made, components, carried⟩ := exists_plan_of_solve done
  obtain ⟨plan', blocks', make', made', components', carried'⟩ := exists_plan_of_solve done'
  have told := told_of_carryOut components made.islands carried
  have told' := told_of_carryOut components' made'.islands carried'
  have prolongs := within.prolongs_seeded session
  have among := among_of_made within prolongs made made'
  have recurring : ∀ island ∈ plan.islands, ∃ other ∈ plan'.islands,
      plan.Recurs plan' island other := fun island known =>
    exists_recurs within prolongs made made' components components' make make' known
  constructor
  · intro v live
    by_cases registered : v ∈ plan.pool.keys
    · by_cases inside : ∃ island ∈ plan.islands, v ∈ island.members
      · obtain ⟨island, known, inside⟩ := inside
        obtain ⟨other, known', recurs⟩ := recurring island known
        have inside' : v ∈ other.members := recurs.members ▸ inside
        by_cases sound : plan.faultsOf island.index = []
        · obtain ⟨s, solved, values⟩ := told.value island known sound
          obtain ⟨s', solved', values'⟩ := told'.value other known' (recurs.faults.trans sound)
          rw [values v inside, values' v inside', recurs.value_eq solved solved' inside]
        · rw [told.value?_of_faulty known sound inside,
            told'.value?_of_faulty known' (recurs.faults ▸ sound) inside']
      · have alone : ¬∃ other ∈ plan'.islands, v ∈ other.members := by
          rintro ⟨other, known', inside'⟩
          exact inside (among.exists_island_of_mem made.islands made'.islands known' inside' live)
        rw [value?_of_alone components made.islands carried registered inside,
          value?_of_alone components' made'.islands carried'
            ((among.prolongs.mem_keys_iff live).mpr registered) alone,
          among.prolongs.valuation_eq live]
    · rw [told.value?_of_not_mem_keys registered, told'.value?_of_not_mem_keys
        (mt (among.prolongs.mem_keys_iff live).mp registered)]
  · intro report member
    rcases told.report_cases member with ⟨island, known, reported⟩ | ⟨flaw, orphan, alone⟩
    · obtain ⟨other, known', recurs⟩ := recurring island known
      obtain ⟨report', placed', reported'⟩ := told'.exists_report known'
      refine ⟨report', placed', recurs.report_eq ?_ reported reported'⟩
      rw [Bool.eq_iff_iff, List.any_eq_true, List.any_eq_true]
      refine exists_congr fun v => and_congr_right fun unknown => ?_
      rw [within.remembers_eq session (among.prolongs.own v (Partition.mem_keys_of_mem made.islands
        known (List.mem_append_left _ unknown)))]
    · obtain ⟨report', placed', alone'⟩ :=
        told'.exists_orphan_report (orphans_within within prolongs made made' orphan)
      obtain ⟨index, rfl⟩ := alone
      obtain ⟨index', rfl⟩ := alone'
      exact ⟨_, placed', rfl⟩

/-- **Unrelated geometry does not change a solution.** Take any two drawings of which neither refers
to anything outside it, whatever else is wrong with them, and append the second to the first. For
all settings and every drag, if the first by itself and both together are solved from the same
session, a fresh one or not, and both solves return, then each variable of the first drawing has the
same value in both results or none in either, and each report on the first drawing, skipped islands
included, is there again, perhaps under another number. What is dragged is in the first drawing, as
otherwise its solve does not return. -/
theorem recurs_of_solve (closed : sketch.Closed) (closed' : other.Closed)
    (done : session.solve numerals methods options sketch drag = (session', .ok result))
    (done' : session.solve numerals methods options (sketch.append other) drag =
      (session'', .ok result')) :
    result.RecursIn result' sketch :=
  (Sketch.within_append closed closed').recursIn done done'

end Solving

/-! ### A drawing next to itself -/

/-- A point by itself, and two points of which a ratio of radii is demanded. -/
noncomputable def mismatched : Sketch ℝ where
  features := ⟨[⟨some (.point 0 0 false), 0⟩, ⟨some (.point 0 1 false), 0⟩,
    ⟨some (.point 1 1 false), 0⟩]⟩
  constraints := ⟨[⟨some (.plain .radiusEqual [⟨1, 0⟩, ⟨2, 0⟩] none none), 0⟩]⟩
  groups := []

namespace Mismatched

theorem closed : mismatched.Closed where
  features := by
    simp [mismatched, Arena.items, Arena.itemsFrom, Feature.point, Feature.plain]
  constraints := by
    simp [mismatched, Arena.items, Arena.itemsFrom, Constraint.plain, Sketch.isLive, Arena.isLive,
      Arena.get?, Arena.slot?]

/-- The point by itself is dragged. -/
noncomputable def drag : Drag ℝ := ⟨⟨0, 0⟩, ⟨0, 1⟩⟩

/-- What is wrong with the ratio, when so many places come first. -/
noncomputable def flaw (constraints places : Nat) : Flaw ℝ :=
  .constraint ⟨constraints, 0⟩ .radiusEqual [⟨places + 1, 0⟩, ⟨places + 2, 0⟩]
    (.kinds [.point, .point])

/-- The two points that the ratio holds together. -/
def held (index places : Nat) : Island ℝ :=
  ⟨index, coordinates [⟨places + 1, 0⟩, ⟨places + 2, 0⟩], [], []⟩

noncomputable def plan : Plan ℝ where
  flaws := [flaw 0 0]
  pool := Pool.ofSketch mismatched
  islands := [Lone.island 0 ⟨0, 0⟩, held 1 0]
  faults := [(1, flaw 0 0)]
  orphans := []
  dragging := true
  anchors := [⟨0, 0⟩]
  targets := [(0, meanPoint [⟨0, 0⟩] + (drag.target - meanPoint [⟨0, 0⟩]))]

noncomputable def plan' : Plan ℝ where
  flaws := [flaw 0 0, flaw 1 3]
  pool := Pool.ofSketch (mismatched.append mismatched)
  islands := [Lone.island 0 ⟨0, 0⟩, held 1 0, Lone.island 2 ⟨3, 0⟩, held 3 3]
  faults := [(1, flaw 0 0), (3, flaw 1 3)]
  orphans := []
  dragging := true
  anchors := [⟨0, 0⟩]
  targets := [(0, meanPoint [⟨0, 0⟩] + (drag.target - meanPoint [⟨0, 0⟩]))]

theorem made : Plan.make mismatched (Session.fresh.seeded mismatched) (some drag) = .ok plan := by
  cbv

theorem made' : Plan.make (mismatched.append mismatched)
    (Session.fresh.seeded (mismatched.append mismatched)) (some drag) = .ok plan' := by
  cbv

/-- The point by itself is found at `x`. -/
noncomputable def gathered (x : List ℝ) : Session.Gathered ℝ :=
  ((⟨plan.pool, .fresh, [], []⟩ : Session.Gathered ℝ).take .fresh (Lone.stay plan.pool 0 ⟨0, 0⟩ x)
    Lone.diagnosis).skip (held 1 0) [flaw 0 0]

/-- The point that was added by itself is found at `y`. -/
noncomputable def gathered' (x y : List ℝ) : Session.Gathered ℝ :=
  ((((⟨plan'.pool, .fresh, [], []⟩ : Session.Gathered ℝ).take .fresh
    (Lone.stay plan'.pool 0 ⟨0, 0⟩ x) Lone.diagnosis).skip (held 1 0) [flaw 0 0]).take .fresh
      (Lone.stay plan'.pool 2 ⟨3, 0⟩ y) Lone.diagnosis).skip (held 3 3) [flaw 1 3]

theorem exists_solve : ∃ session' result,
    Session.fresh.solve ⟨id, fun _ => ""⟩ Methods.orthogonal Options.real mismatched (some drag) =
      (session', .ok result) := by
  obtain ⟨values, registered⟩ : ∃ values,
      islandValues plan.pool (Lone.island 0 ⟨0, 0⟩) = .ok values := ⟨_, by cbv⟩
  obtain ⟨x, moved⟩ := Lone.exists_solved Methods.orthogonal registered (by cbv)
  have all : plan.solvedAll Methods.orthogonal Options.real = .ok [Lone.stay _ 0 ⟨0, 0⟩ x] :=
    mapM_eq_ok_iff.mpr (.cons moved .nil)
  have second : plan.faultsOf 1 = [flaw 0 0] := rfl
  have gathering : Session.gather Methods.orthogonal Options.real plan .fresh
      [Lone.stay _ 0 ⟨0, 0⟩ x] plan.islands ⟨plan.pool, .fresh, [], []⟩ = (gathered x, none) :=
    calc Session.gather Methods.orthogonal Options.real plan .fresh _ [_, _] _
      _ = _ := Session.gather_cons_of_sound rfl rfl (Lone.diagnosed _ _ _ _ _)
      _ = _ := Session.gather_cons_of_faulty (by simp [held, second])
  rw [Session.solve_of_isUsable Options.isUsable_real made]
  exact ⟨_, _, Session.carryOut_of_gather all gathering rfl⟩

theorem exists_solve' : ∃ session' result,
    Session.fresh.solve ⟨id, fun _ => ""⟩ Methods.orthogonal Options.real
      (mismatched.append mismatched) (some drag) = (session', .ok result) := by
  obtain ⟨values, registered⟩ : ∃ values,
      islandValues plan'.pool (Lone.island 0 ⟨0, 0⟩) = .ok values := ⟨_, by cbv⟩
  obtain ⟨values', registered'⟩ : ∃ values,
      islandValues plan'.pool (Lone.island 2 ⟨3, 0⟩) = .ok values := ⟨_, by cbv⟩
  obtain ⟨x, moved⟩ := Lone.exists_solved Methods.orthogonal registered (by cbv)
  obtain ⟨y, stayed⟩ := Lone.exists_solved Methods.orthogonal registered' (by cbv)
  have all : plan'.solvedAll Methods.orthogonal Options.real =
      .ok [Lone.stay _ 0 ⟨0, 0⟩ x, Lone.stay _ 2 ⟨3, 0⟩ y] :=
    mapM_eq_ok_iff.mpr (.cons moved (.cons stayed .nil))
  have second : plan'.faultsOf 1 = [flaw 0 0] := rfl
  have fourth : plan'.faultsOf 3 = [flaw 1 3] := rfl
  have gathering : Session.gather Methods.orthogonal Options.real plan' .fresh
      [Lone.stay _ 0 ⟨0, 0⟩ x, Lone.stay _ 2 ⟨3, 0⟩ y] plan'.islands
        ⟨plan'.pool, .fresh, [], []⟩ = (gathered' x y, none) :=
    calc Session.gather Methods.orthogonal Options.real plan' .fresh _ [_, _, _, _] _
      _ = _ := Session.gather_cons_of_sound rfl rfl (Lone.diagnosed _ _ _ _ _)
      _ = _ := Session.gather_cons_of_faulty (by simp [held, second])
      _ = _ := Session.gather_cons_of_sound rfl rfl (Lone.diagnosed _ _ _ _ _)
      _ = _ := Session.gather_cons_of_faulty (by simp [held, fourth])
  rw [Session.solve_of_isUsable Options.isUsable_real made']
  exact ⟨_, _, Session.carryOut_of_gather all gathering rfl⟩

end Mismatched

theorem recurs_of_solve_mismatched : mismatched.Closed ∧
    ∃ session' result session'' result',
      Session.fresh.solve ⟨id, fun _ => ""⟩ Methods.orthogonal Options.real mismatched
        (some Mismatched.drag) = (session', .ok result) ∧
      Session.fresh.solve ⟨id, fun _ => ""⟩ Methods.orthogonal Options.real
        (mismatched.append mismatched) (some Mismatched.drag) = (session'', .ok result') ∧
      result.RecursIn result' mismatched := by
  obtain ⟨session', result, done⟩ := Mismatched.exists_solve
  obtain ⟨session'', result', done'⟩ := Mismatched.exists_solve'
  exact ⟨Mismatched.closed, session', result, session'', result', done, done',
    recurs_of_solve Mismatched.closed Mismatched.closed done done'⟩

end PlaneSketch
