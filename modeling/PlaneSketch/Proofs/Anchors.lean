import Mathlib
import PlaneSketch.Proofs.Containment
import PlaneSketch.Proofs.Pulls
import PlaneSketch.Proofs.Unanchored

/-!
A drag takes its anchors along as one.

The anchors of a feature may be bound, and the free ones may lie in different islands. One
displacement is found for all of them; each island is given a target for the mean of its own free
anchors, and its pull turns the target back into the displacement.

* `Plan.Drags.target?_eq_some`: an island is pulled from the mean of its own free anchors.
* `Plan.Drags.exists_pull`: its pull carries these anchors as far as the drag goes.
* `exists_rigid`: so every drag of a feature that is not broken is rigid.
* `exists_anchor_skipped`: an island that is skipped does not follow, even with nothing to solve.
-/

namespace PlaneSketch

/-! ### Where a drag takes its anchors -/

theorem Pool.point_eq_valuation {pool : Pool ℝ} {h : Handle} {position : Vec2 ℝ}
    (found : pool.point h = .ok position) : pool.valuation.point h = position := by
  obtain ⟨x, foundX, rest⟩ := bind_eq_ok_iff.mp found
  obtain ⟨y, foundY, same⟩ := bind_eq_ok_iff.mp rest
  rw [← Except.ok.inj same, Valuation.point, valuation, valuation, foundX, foundY]

theorem Pool.points_eq {pool : Pool ℝ} {anchors : List Handle} {points : List (Handle × Vec2 ℝ)}
    (located : (anchors.mapM fun h => do return (h, ← pool.point h)) = .ok points) :
    points = anchors.map fun h => (h, pool.valuation.point h) := by
  rw [← List.map_id points]
  refine (map_eq_of_forall₂ ((mapM_eq_ok_iff.mp located).imp fun h point found => ?_)).symm
  obtain ⟨position, found, same⟩ := bind_eq_ok_iff.mp found
  rw [← Except.ok.inj same, Pool.point_eq_valuation found, id]

theorem exists_island_of_target {pool : Pool ℝ} {blocks : List (Block ℝ)}
    {links : List (List Variable)} {islands : List (Island ℝ)} {anchors : List Handle}
    {target : Vec2 ℝ} {targets : List (Nat × Vec2 ℝ)}
    (done : partition pool blocks links = .ok islands)
    (found : dragTargets pool islands anchors target = .ok targets) {index : Nat}
    (listed : index ∈ targets.map (·.1)) : ∃ island ∈ islands, island.index = index := by
  obtain ⟨points, -, rest⟩ := bind_eq_ok_iff.mp found
  have keys : targets.map (·.1) = firstOccurrences ((placed pool islands points).map (·.1)) := by
    rw [← Except.ok.inj rest, List.map_map]
    exact List.map_id _
  rw [keys, mem_firstOccurrences] at listed
  obtain ⟨pair, member, rfl⟩ := List.mem_map.mp listed
  obtain ⟨point, -, home⟩ := List.mem_filterMap.mp member
  split at home
  · obtain ⟨_, inside, rfl⟩ := Option.map_eq_some_iff.mp home
    obtain ⟨island, known, same, -⟩ := (Partition.islandOf?_eq_some_iff done).mp inside
    exact ⟨island, known, same⟩
  · cases home

/-- The island is reported, and not as skipped. -/
def Result.Attempts (result : Result ℝ) (island : Island ℝ) : Prop :=
  ∃ report, result.islands[island.index]? = some report ∧ report.status ≠ .skipped

namespace Plan

section Dragging

variable {plan : Plan ℝ} {drag : Drag ℝ} {blocks : List (Block ℝ)} {links : List (List Variable)}
  {island : Island ℝ} {h : Handle}

/-- The anchors that are free and lie in an island. -/
noncomputable def freeAnchors (plan : Plan ℝ) (island : Island ℝ) : List Handle :=
  (plan.system island).held plan.anchors

/-- How far a drag goes: from the mean of all its anchors, bound ones included, to the target. -/
noncomputable def displacement (plan : Plan ℝ) (drag : Drag ℝ) : Vec2 ℝ :=
  drag.target - meanPoint (plan.anchors.map plan.pool.valuation.point)

/-- Where everything is once the free anchors in an island have gone as far as the drag. -/
noncomputable def displaced (plan : Plan ℝ) (drag : Drag ℝ) (island : Island ℝ) : Valuation ℝ :=
  plan.pool.valuation.displace (plan.freeAnchors island) (plan.displacement drag)

/-- The drag of a feature that is not broken, as it is planned. -/
structure Drags (plan : Plan ℝ) (drag : Drag ℝ) (blocks : List (Block ℝ))
    (links : List (List Variable)) : Prop where
  distinct : plan.anchors.Nodup
  nonempty : plan.anchors ≠ []
  partitioned : partition plan.pool blocks links = .ok plan.islands
  components : Partition.Components plan.pool blocks links plan.islands
  together : ∀ island ∈ plan.islands, ∀ h,
    ⟨h, .x⟩ ∈ island.unknowns ↔ ⟨h, .y⟩ ∈ island.unknowns
  ready : ∀ island ∈ plan.islands, ∃ system, Equations.ofIsland plan.pool island = .ok system
  found : dragTargets plan.pool plan.islands plan.anchors drag.target = .ok plan.targets

namespace Drags

/-- An island with one coordinate of an anchor has the anchor. -/
theorem mem_freeAnchors_iff (drags : plan.Drags drag blocks links) (known : island ∈ plan.islands)
    (anchor : h ∈ plan.anchors) {c : Component} (planar : c ∈ [Component.x, .y]) :
    h ∈ plan.freeAnchors island ↔ ⟨h, c⟩ ∈ island.unknowns := by
  have together := drags.together island known h
  rw [freeAnchors, Equations.held, List.mem_filter, decide_eq_true_eq, and_iff_right anchor]
  rcases List.mem_pair.mp planar with rfl | rfl
  · exact and_iff_left_of_imp together.mp
  · exact and_iff_right_of_imp together.mpr

/-- The target of an island is found for the anchors of which it has the first coordinate. These are
the ones of which it has both. -/
theorem freeAnchors_eq (drags : plan.Drags drag blocks links) (known : island ∈ plan.islands) :
    plan.freeAnchors island = plan.anchors.filter fun h =>
      plan.pool.isFree ⟨h, .x⟩ && island.members.contains ⟨h, .x⟩ := by
  refine List.filter_congr fun h _ => ?_
  rw [Bool.eq_iff_iff, decide_eq_true_eq, Bool.and_eq_true, List.contains_iff_mem]
  refine (and_iff_left_of_imp (drags.together island known h).mp).trans ⟨fun unknown => ?_, ?_⟩
  · exact ⟨drags.components.unknowns_free island known _ unknown, List.mem_append_left _ unknown⟩
  · exact fun inside => Partition.mem_unknowns_of_free drags.partitioned known inside.2 inside.1

theorem followers_eq (drags : plan.Drags drag blocks links) (known : island ∈ plan.islands) :
    followers plan.pool island (plan.anchors.map fun h => (h, plan.pool.valuation.point h)) =
      (plan.freeAnchors island).map plan.pool.valuation.point := by
  rw [followers, List.filterMap_map, drags.freeAnchors_eq known, ← List.filterMap_eq_map,
    List.filterMap_filter]
  rfl

/-- Where a drag pulls: as far as it goes, when there is a free anchor to be pulled. -/
theorem pulled?_eq (drags : plan.Drags drag blocks links) (known : island ∈ plan.islands) :
    plan.target? island.index = pulled? plan.pool island
      (plan.anchors.map fun h => (h, plan.pool.valuation.point h)) drag.target := by
  obtain ⟨points, located, pulled⟩ :=
    find?_dragTargets drags.partitioned drags.components drags.found
  rw [target?, pulled island known, Pool.points_eq located]

theorem target?_eq_none (drags : plan.Drags drag blocks links) (known : island ∈ plan.islands)
    (unfree : plan.freeAnchors island = []) : plan.target? island.index = none := by
  rw [drags.pulled?_eq known, pulled?, drags.followers_eq known, unfree, List.map_nil, if_pos rfl]

/-- **A drag pulls the free anchors of an island as far as it goes.** -/
theorem target?_eq_some (drags : plan.Drags drag blocks links) (known : island ∈ plan.islands)
    (anchored : plan.freeAnchors island ≠ []) : plan.target? island.index =
      some (meanPoint ((plan.freeAnchors island).map plan.pool.valuation.point) +
        plan.displacement drag) := by
  rw [drags.pulled?_eq known, pulled?, drags.followers_eq known,
    if_neg (anchored ∘ List.map_eq_nil_iff.mp), List.map_map]
  rfl

/-- The targets are those of islands with a free anchor. -/
theorem mem_targets_iff (drags : plan.Drags drag blocks links) (index : Nat) :
    index ∈ plan.targets.map (·.1) ↔
      ∃ island ∈ plan.islands, island.index = index ∧ plan.freeAnchors island ≠ [] := by
  have listed (island : Island ℝ) (known : island ∈ plan.islands) :
      island.index ∈ plan.targets.map (·.1) ↔ plan.freeAnchors island ≠ [] := by
    by_cases unfree : plan.freeAnchors island = []
    · have absent := drags.target?_eq_none known unfree
      rw [target?, Assoc.find?_eq_none_iff] at absent
      exact iff_of_false absent (not_not.mpr unfree)
    · refine iff_of_true ?_ unfree
      by_contra absent
      have found := drags.target?_eq_some known unfree
      rw [target?, Assoc.find?_eq_none_iff.mpr absent] at found
      cases found
  constructor
  · intro target
    obtain ⟨island, known, rfl⟩ := exists_island_of_target drags.partitioned drags.found target
    exact ⟨island, known, rfl, (listed island known).mp target⟩
  · rintro ⟨island, known, rfl, anchored⟩
    exact (listed island known).mpr anchored

/-- **Every pulled island is carried by its free anchors as far as the drag goes.** -/
theorem exists_pull (drags : plan.Drags drag blocks links) (known : island ∈ plan.islands)
    (anchored : plan.freeAnchors island ≠ []) (options : Options ℝ) :
    ∃ pull, plan.pull? options (plan.system island) island.index = some pull ∧
      pull.Carries island.unknowns (plan.freeAnchors island) ∧
      pull.recenter (plan.start island) = island.unknowns.map (plan.displaced drag island) := by
  obtain ⟨pull, pulled, target, carries⟩ := (plan.system island).exists_pull? drags.distinct
    (fun h _ => drags.together island known h) anchored _ options.dragWeight
  refine ⟨pull, ?_, carries, ?_⟩
  · rw [pull?, drags.target?_eq_some known anchored]
    exact pulled
  · exact Pull.recenter_eq carries.x_covers carries.y_covers
      (Partition.nodup_unknowns drags.partitioned known) plan.pool.valuation target

/-- Where an island sets out, what the drag carries is displaced already. -/
theorem setOut_eq (drags : plan.Drags drag blocks links) (known : island ∈ plan.islands)
    (options : Options ℝ) :
    Equations.setOut (plan.pull? options (plan.system island) island.index) (plan.start island) =
      island.unknowns.map (plan.displaced drag island) := by
  by_cases unfree : plan.freeAnchors island = []
  · have still : plan.displaced drag island = plan.pool.valuation := by
      funext u
      exact Valuation.displace_of_not_mem (by simp [unfree])
    rw [pull?_of_target? (drags.target?_eq_none known unfree), still]
    rfl
  · obtain ⟨pull, pulled, -, moved⟩ := drags.exists_pull known unfree options
    rw [pulled]
    exact moved

end Drags

/-- The variables once an island is recentred, before anything is solved. -/
noncomputable def recentred (plan : Plan ℝ) (options : Options ℝ) (island : Island ℝ) :
    Valuation ℝ :=
  (plan.system island).valuation
    (Equations.setOut (plan.pull? options (plan.system island) island.index) (plan.start island))

/-- **A drag is rigid.** -/
structure Rigid (plan : Plan ℝ) (drag : Drag ℝ) : Prop where
  /-- a coordinate of an anchor is free when the anchor lies in an island, and then in one only -/
  placed : ∀ h ∈ plan.anchors, ∀ c ∈ [Component.x, .y], plan.pool.isFree ⟨h, c⟩ = true ↔
    ∃! island, island ∈ plan.islands ∧ h ∈ plan.freeAnchors island
  /-- the islands with a free anchor have a target, and no others -/
  targeted : ∀ index, index ∈ plan.targets.map (·.1) ↔
    ∃ island ∈ plan.islands, island.index = index ∧ plan.freeAnchors island ≠ []
  /-- each is pulled by its free anchors, and recentring displaces these and nothing else -/
  carried : ∀ island ∈ plan.islands, plan.freeAnchors island ≠ [] → ∀ options : Options ℝ,
    ∃ pull, plan.pull? options (plan.system island) island.index = some pull ∧
      pull.Carries island.unknowns (plan.freeAnchors island) ∧
      pull.recenter (plan.start island) = island.unknowns.map (plan.displaced drag island)
  /-- anchors keep their relative positions, whichever islands they lie in -/
  apart : ∀ options : Options ℝ, ∀ island ∈ plan.islands, ∀ other ∈ plan.islands,
    ∀ h ∈ plan.freeAnchors island, ∀ k ∈ plan.freeAnchors other,
      (plan.recentred options island).point h - (plan.recentred options other).point k =
        plan.pool.valuation.point h - plan.pool.valuation.point k
  /-- where there are no equations, an island ends as it is recentred -/
  ended : ∀ island ∈ plan.islands, island.rows = 0 → ∀ (methods : Methods ℝ) (options : Options ℝ),
    ∃ s, plan.solved methods options island = .ok s ∧
      s.outcome.x = island.unknowns.map (plan.displaced drag island)

/-- Where the anchors of a drag end when nothing is demanded of them. -/
structure Lands (plan : Plan ℝ) (drag : Drag ℝ) (result : Result ℝ) : Prop where
  /-- every island is reported in its place -/
  reported : ∀ island ∈ plan.islands, ∃ report, result.islands[island.index]? = some report ∧
    report.unknowns = island.members
  displaced : ∀ island ∈ plan.islands, island.rows = 0 → result.Attempts island →
    ∀ h ∈ plan.freeAnchors island,
      result.point h = .ok (plan.pool.valuation.point h + plan.displacement drag)
  on_target : (∀ h ∈ plan.anchors, plan.pool.isFree ⟨h, .x⟩ = true) →
    (∀ island ∈ plan.islands, plan.freeAnchors island ≠ [] →
      island.rows = 0 ∧ result.Attempts island) →
    ∃ places, plan.anchors.mapM result.point = .ok places ∧ meanPoint places = drag.target

namespace Drags

/-- A position is that of the values it was made from. -/
theorem valuation_map (drags : plan.Drags drag blocks links) (known : island ∈ plan.islands)
    (v : Valuation ℝ) {u : Variable} (unknown : u ∈ island.unknowns) :
    (plan.system island).valuation (island.unknowns.map v) u = v u :=
  List.map_inj_left.mp (Equations.map_valuation
    (Partition.nodup_unknowns drags.partitioned known) (List.length_map _)) u unknown

/-- A recentred island has its free anchors displaced. -/
theorem point_recentred (drags : plan.Drags drag blocks links) (known : island ∈ plan.islands)
    (options : Options ℝ) (free : h ∈ plan.freeAnchors island) :
    (plan.recentred options island).point h =
      plan.pool.valuation.point h + plan.displacement drag := by
  obtain ⟨hasX, hasY⟩ := of_decide_eq_true (List.mem_filter.mp free).2
  rw [← Valuation.point_displace free, Valuation.point, recentred, drags.setOut_eq known,
    drags.valuation_map known _ hasX, drags.valuation_map known _ hasY]
  rfl

/-- **Without equations an island ends where it is recentred.** -/
theorem exists_solved (drags : plan.Drags drag blocks links) (known : island ∈ plan.islands)
    (empty : island.rows = 0) (methods : Methods ℝ) (options : Options ℝ) :
    ∃ s, plan.solved methods options island = .ok s ∧ s.system = plan.system island ∧
      s.outcome.x = island.unknowns.map (plan.displaced drag island) := by
  obtain ⟨⟨_, x⟩, made⟩ := drags.ready island known
  obtain ⟨-, begins⟩ := Equations.eq_of_ofIsland made
  obtain ⟨values, registered, rest⟩ := bind_eq_ok_iff.mp made
  obtain ⟨_, started, same⟩ := bind_eq_ok_iff.mp rest
  cases same
  have rows : (plan.system island).rows = 0 := empty
  refine ⟨_, solved_of_registered registered started
    (Equations.outcome_of_no_rows rows methods _ _ x), rfl, ?_⟩
  rw [begins]
  exact drags.setOut_eq known options

theorem rigid (drags : plan.Drags drag blocks links) : plan.Rigid drag where
  placed h anchor c planar := by
    have member : ∀ island, island ∈ plan.islands ∧ h ∈ plan.freeAnchors island ↔
        island ∈ plan.islands ∧ ⟨h, c⟩ ∈ island.unknowns := fun island =>
      and_congr_right fun known => drags.mem_freeAnchors_iff known anchor planar
    rw [existsUnique_congr member]
    constructor
    · exact drags.components.free_once ⟨h, c⟩
    · rintro ⟨island, ⟨known, unknown⟩, -⟩
      exact drags.components.unknowns_free island known _ unknown
  targeted := drags.mem_targets_iff
  carried _ known anchored := drags.exists_pull known anchored
  apart options island known other known' h free k free' := by
    rw [drags.point_recentred known options free, drags.point_recentred known' options free']
    exact Vec2.add_sub_add_right _ _ _
  ended island known empty methods options := by
    obtain ⟨s, solved, -, position⟩ := drags.exists_solved known empty methods options
    exact ⟨s, solved, position⟩

/-- So everything free in it is reported where the drag takes it. -/
theorem value?_eq (drags : plan.Drags drag blocks links) {methods : Methods ℝ}
    {options : Options ℝ} {warm : Session ℝ} {result : Result ℝ}
    (told : Told plan methods options warm result) (known : island ∈ plan.islands)
    (empty : island.rows = 0) (attempts : result.Attempts island) {u : Variable}
    (unknown : u ∈ island.unknowns) :
    result.value? u = some (plan.displaced drag island u) := by
  obtain ⟨report, placed, unskipped⟩ := attempts
  obtain ⟨report', placed', reported⟩ := told.report_at drags.components known
  obtain rfl := Option.some.inj (placed.symm.trans placed')
  obtain ⟨s, solved, values⟩ := told.value island known (reported.sound unskipped)
  obtain ⟨s', solved', system, position⟩ := drags.exists_solved known empty methods options
  obtain rfl := Except.ok.inj (solved.symm.trans solved')
  rw [values u (List.mem_append_left _ unknown), system, position,
    drags.valuation_map known _ unknown]

theorem point_eq_ok (drags : plan.Drags drag blocks links) {methods : Methods ℝ}
    {options : Options ℝ} {warm : Session ℝ} {result : Result ℝ}
    (told : Told plan methods options warm result) (known : island ∈ plan.islands)
    (empty : island.rows = 0) (attempts : result.Attempts island)
    (anchor : h ∈ plan.freeAnchors island) :
    result.point h = .ok (plan.pool.valuation.point h + plan.displacement drag) := by
  obtain ⟨hasX, hasY⟩ := of_decide_eq_true (List.mem_filter.mp anchor).2
  rw [Result.point, drags.value?_eq told known empty attempts hasX,
    drags.value?_eq told known empty attempts hasY, ← Valuation.point_displace anchor]
  rfl

theorem lands (drags : plan.Drags drag blocks links) {methods : Methods ℝ} {options : Options ℝ}
    {warm : Session ℝ} {result : Result ℝ} (told : Told plan methods options warm result) :
    plan.Lands drag result where
  reported island known := by
    obtain ⟨report, placed, reported⟩ := told.report_at drags.components known
    exact ⟨report, placed, reported.unknowns⟩
  displaced _ known empty attempts _ := drags.point_eq_ok told known empty attempts
  on_target free alone := by
    have all : ∀ h ∈ plan.anchors,
        result.point h = .ok (plan.pool.valuation.point h + plan.displacement drag) := by
      intro h anchor
      obtain ⟨island, ⟨known, held⟩, -⟩ :=
        (drags.rigid.placed h anchor .x List.mem_cons_self).mp (free h anchor)
      obtain ⟨empty, attempts⟩ := alone island known (List.ne_nil_of_mem held)
      exact drags.point_eq_ok told known empty attempts held
    refine ⟨(plan.anchors.map plan.pool.valuation.point).map (· + plan.displacement drag), ?_, ?_⟩
    · rw [List.map_map]
      exact mapM_eq_ok_iff.mpr (List.forall₂_map_right_iff.mpr (List.forall₂_same.mpr all))
    · rw [meanPoint_add (by simpa using drags.nonempty), displacement, Vec2.add_displacement]

end Drags

end Dragging

end Plan

/-! ### Every drag -/

section Solving

variable {sketch : Sketch ℝ} {start : Pool ℝ} {drag : Drag ℝ} {feature : Feature ℝ}
  {anchors : List Handle}

/-- There is an anchor, and none is given twice. -/
theorem Sketch.nodup_dragAnchors {h : Handle} (found : sketch.feature? h = some feature)
    (sound : h ∉ sketch.brokenFeatures sketch.flaws) (listed : sketch.dragAnchors h = .ok anchors) :
    anchors ≠ [] ∧ anchors.Nodup := by
  have built := built_of_unbroken found sound
  have live : sketch.liveFeature h = .ok feature := by rw [liveFeature, found]
  simp only [dragAnchors, live, bind_eq_ok_iff, Except.ok.injEq, exists_eq_left'] at listed
  cases kind : feature.kind <;> simp only [kind] at built listed
  case point =>
    obtain rfl := Except.ok.inj listed
    simp
  case line =>
    obtain rfl := Except.ok.inj listed
    obtain ⟨a, b, references⟩ := List.length_eq_two.mp built.count
    have distinct := built.distinct
    rw [references] at distinct ⊢
    exact ⟨List.cons_ne_nil a [b], distinct⟩
  all_goals
    obtain ⟨center, -, same⟩ := bind_eq_ok_iff.mp listed
    obtain rfl := Except.ok.inj same
    simp

/-- Real numbers have no infinite angle. -/
theorem Sketch.not_asksInfinite_real (sketch : Sketch ℝ) : ¬sketch.AsksInfinite := by
  rintro ⟨_, _, _, _, _, none⟩
  cases none

/-- **Every drag of a feature that is not broken is planned.** -/
theorem exists_drags (found : sketch.feature? drag.feature = some feature)
    (sound : drag.feature ∉ sketch.brokenFeatures sketch.flaws)
    (same : Pool.SameShape (Pool.ofSketch sketch) start) :
    ∃ plan blocks, Plan.make sketch start (some drag) = .ok plan ∧
      sketch.dragAnchors drag.feature = .ok plan.anchors ∧
      plan.Drags drag blocks (sketch.flaws.map (Plan.touched sketch plan.pool)) := by
  have covers := Sketch.covers_of_sameShape same
  obtain ⟨pool, blocks, compiled⟩ :=
    (Sketch.compiled_cases covers).resolve_right fun none => sketch.not_asksInfinite_real none.2
  obtain ⟨islands, partitioned, ready⟩ := exists_islands same compiled
    (sketch.flaws.map (Plan.touched sketch pool))
  obtain ⟨anchors, listed, points⟩ := Sketch.exists_dragAnchors found sound
  obtain ⟨nonempty, distinct⟩ := Sketch.nodup_dragAnchors found sound listed
  obtain ⟨targets, pulled⟩ := (exists_dragTargets partitioned
    (covers.of_keys_eq (Sketch.keys_compile compiled)) points drag.target).1
  have components := Partition.components_of_compiled same compiled partitioned
  refine ⟨{ Plan.still sketch pool islands with dragging := true, anchors, targets }, blocks, ?_,
    listed, distinct, nonempty, partitioned, components, fun island known h => ?_, ready, pulled⟩
  · have live : sketch.liveFeature drag.feature = .ok feature := by rw [Sketch.liveFeature, found]
    have unbroken : (sketch.brokenFeatures sketch.flaws).contains drag.feature = false := by
      simpa using sound
    have carried : Plan.dragged sketch pool islands (sketch.brokenFeatures sketch.flaws) drag =
        .ok (anchors, targets) := by
      simp only [Plan.dragged, live, unbroken, listed, pulled, bind, Except.bind]
      rfl
    have done : Plan.islandsOf sketch pool blocks sketch.flaws = .ok islands := partitioned
    simp only [Plan.make, compiled, done, carried, bind, Except.bind]
    rfl
  · have both := fun holds => coordinates_together same compiled partitioned known (p := h) holds
    exact ⟨fun hasX => (both (.inl hasX)).2, fun hasY => (both (.inr hasY)).1⟩

/-- **Every drag of a feature that is not broken is rigid.** -/
theorem exists_rigid (found : sketch.feature? drag.feature = some feature)
    (sound : drag.feature ∉ sketch.brokenFeatures sketch.flaws) (session : Session ℝ) :
    ∃ plan, Plan.make sketch (session.seeded sketch) (some drag) = .ok plan ∧
      sketch.dragAnchors drag.feature = .ok plan.anchors ∧ plan.Rigid drag ∧
      ∀ (ν : Type) [Ordered ν] (numerals : Numerals ν ℝ) methods options session' result,
        session.solve numerals methods options sketch (some drag) = (session', .ok result) →
          plan.Lands drag result := by
  obtain ⟨plan, blocks, make, listed, drags⟩ :=
    exists_drags found sound (session.sameShape_seeded sketch)
  refine ⟨plan, make, listed, drags.rigid, ?_⟩
  intro ν _ numerals methods options session' result done
  obtain ⟨plan', _, make', -, -, told⟩ := exists_told_of_solve done
  obtain rfl := Except.ok.inj (make.symm.trans make')
  exact drags.lands told

end Solving

/-! ### A line on a hinge -/

/-- A line with one of its ends fixed. -/
noncomputable def hinged : Sketch ℝ where
  features := ⟨[⟨some (.point (-1) 0 false), 0⟩, ⟨some (.point 1 0 false), 0⟩,
    ⟨some (.line ⟨0, 0⟩ ⟨1, 0⟩ false), 0⟩]⟩
  constraints := ⟨[⟨some (.fixed ⟨0, 0⟩ ⟨-1, 0⟩), 0⟩]⟩
  groups := []

namespace Hinged

/-- The line is dragged straight up by its middle. -/
noncomputable def drag : Drag ℝ := ⟨⟨2, 0⟩, ⟨0, 1⟩⟩

noncomputable def plan : Plan ℝ where
  flaws := []
  pool := (Pool.ofSketch hinged).pin ⟨0, 0⟩ ⟨-1, 0⟩ ⟨0, 0⟩
  islands := [Lone.island 0 ⟨1, 0⟩]
  faults := []
  orphans := []
  dragging := true
  anchors := [⟨0, 0⟩, ⟨1, 0⟩]
  targets := [(0, meanPoint [⟨1, 0⟩] + (drag.target - meanPoint [⟨-1, 0⟩, ⟨1, 0⟩]))]

theorem made : Plan.make hinged (Session.fresh.seeded hinged) (some drag) = .ok plan := by
  cbv

theorem displacement_eq : plan.displacement drag = ⟨0, 1⟩ := by
  have stand : plan.anchors.map plan.pool.valuation.point = [⟨-1, 0⟩, ⟨1, 0⟩] := by cbv
  have mean : meanPoint [(⟨-1, 0⟩ : Vec2 ℝ), ⟨1, 0⟩] = ⟨0, 0⟩ := by
    norm_num [meanPoint, Vector.mean, Vector.sum, Scalar.ofNat_real]
  rw [Plan.displacement, stand, mean]
  exact congrArg₂ Vec2.mk (sub_zero 0) (sub_zero 1)

theorem exists_solve : ∃ session' result,
    Session.fresh.solve ⟨id, fun _ => ""⟩ Methods.orthogonal Options.real hinged (some drag) =
      (session', .ok result) ∧ result.Attempts (Lone.island 0 ⟨1, 0⟩) := by
  obtain ⟨values, registered⟩ : ∃ values,
      islandValues plan.pool (Lone.island 0 ⟨1, 0⟩) = .ok values := ⟨_, by cbv⟩
  obtain ⟨y, moved⟩ := Lone.exists_solved Methods.orthogonal registered (by cbv)
  have all : plan.solvedAll Methods.orthogonal Options.real =
      .ok [Lone.stay plan.pool 0 ⟨1, 0⟩ y] :=
    mapM_eq_ok_iff.mpr (.cons moved .nil)
  have gathering : Session.gather Methods.orthogonal Options.real plan .fresh
      [Lone.stay plan.pool 0 ⟨1, 0⟩ y] plan.islands ⟨plan.pool, .fresh, [], []⟩ =
        (Session.Gathered.take .fresh ⟨plan.pool, .fresh, [], []⟩
          (Lone.stay plan.pool 0 ⟨1, 0⟩ y) Lone.diagnosis, none) :=
    Session.gather_cons_of_sound rfl rfl (Lone.diagnosed _ _ _ _ _)
  rw [Session.solve_of_isUsable Options.isUsable_real made]
  refine ⟨_, _, Session.carryOut_of_gather all gathering rfl, _, rfl, ?_⟩
  simp [Report.ofDiagnosis, Lone.diagnosis]

end Hinged

/-- The fixed end counts for the mean and stays; the free end goes as far as the line is
dragged. -/
theorem exists_rigid_hinged :
    hinged.feature? ⟨2, 0⟩ = some (.line ⟨0, 0⟩ ⟨1, 0⟩ false) ∧
    ⟨2, 0⟩ ∉ hinged.brokenFeatures hinged.flaws ∧
    Plan.make hinged (Session.fresh.seeded hinged) (some Hinged.drag) = .ok Hinged.plan ∧
    Hinged.plan.Rigid Hinged.drag ∧
    ∃ session' result, Session.fresh.solve ⟨id, fun _ => ""⟩ Methods.orthogonal Options.real hinged
      (some Hinged.drag) = (session', .ok result) ∧ result.point ⟨1, 0⟩ = .ok ⟨1, 1⟩ := by
  have found : hinged.feature? Hinged.drag.feature = some (.line ⟨0, 0⟩ ⟨1, 0⟩ false) := rfl
  have sound : Hinged.drag.feature ∉ hinged.brokenFeatures hinged.flaws := by
    have unbroken : hinged.brokenFeatures hinged.flaws = [] := by cbv
    rw [unbroken]
    exact List.not_mem_nil
  obtain ⟨plan, make, -, rigid, lands⟩ := exists_rigid found sound .fresh
  obtain rfl := Except.ok.inj (Hinged.made.symm.trans make)
  obtain ⟨session', result, done, attempts⟩ := Hinged.exists_solve
  refine ⟨found, sound, make, rigid, session', result, done, ?_⟩
  have free : ⟨1, 0⟩ ∈ Hinged.plan.freeAnchors (Lone.island 0 ⟨1, 0⟩) :=
    List.mem_filter.mpr ⟨by simp [Hinged.plan], by simp [Plan.system, Lone.island, coordinates]⟩
  have stand : Hinged.plan.pool.valuation.point ⟨1, 0⟩ = ⟨1, 0⟩ := by cbv
  rw [(lands ℝ _ _ _ _ _ done).displaced _ List.mem_cons_self rfl attempts ⟨1, 0⟩ free, stand,
    Hinged.displacement_eq]
  exact congrArg Except.ok (congrArg₂ Vec2.mk (add_zero 1) (zero_add 1))

/-! ### A point of which a radius is demanded -/

/-- The demand makes no sense, so that the point is left out. -/
noncomputable def pointWithRadius : Sketch ℝ where
  features := ⟨[⟨some (.point 0 0 false), 0⟩]⟩
  constraints := ⟨[⟨some (.plain .radius [⟨0, 0⟩] (some 1) none), 0⟩]⟩
  groups := []

namespace PointWithRadius

noncomputable def drag : Drag ℝ := ⟨⟨0, 0⟩, ⟨1, 1⟩⟩

noncomputable def flaw : Flaw ℝ := .constraint ⟨0, 0⟩ .radius [⟨0, 0⟩] (.kinds [.point])

noncomputable def plan : Plan ℝ where
  flaws := [flaw]
  pool := Pool.ofSketch pointWithRadius
  islands := [Lone.island 0 ⟨0, 0⟩]
  faults := [(0, flaw)]
  orphans := []
  dragging := true
  anchors := [⟨0, 0⟩]
  targets := [(0, meanPoint [⟨0, 0⟩] + (drag.target - meanPoint [⟨0, 0⟩]))]

noncomputable def gathered : Session.Gathered ℝ :=
  (⟨plan.pool, .fresh, [], []⟩ : Session.Gathered ℝ).skip (Lone.island 0 ⟨0, 0⟩) [flaw]

noncomputable def result : Result ℝ :=
  ⟨(Session.addBound plan.islands gathered).updated, gathered.reports, [flaw]⟩

theorem made : Plan.make pointWithRadius (Session.fresh.seeded pointWithRadius) (some drag) =
    .ok plan := by
  cbv

theorem solve_eq (methods : Methods ℝ) :
    Session.fresh.solve ⟨id, fun _ => ""⟩ methods Options.real pointWithRadius (some drag) =
      (gathered.session, .ok result) := by
  have all : plan.solvedAll methods Options.real = .ok [] := rfl
  have faults : plan.faultsOf (Lone.island 0 ⟨0, 0⟩).index = [flaw] := rfl
  have gathering : Session.gather methods Options.real plan .fresh [] plan.islands
      ⟨plan.pool, .fresh, [], []⟩ = (gathered, none) :=
    Session.gather_cons_of_faulty (by simp [faults])
  rw [Session.solve_of_isUsable Options.isUsable_real made]
  exact Session.carryOut_of_gather all gathering rfl

theorem updated_eq : result.updated = [] := by cbv

end PointWithRadius

/-- **What is skipped does not follow a drag.** All anchors are free and their islands have no
equations, and they stay where they are drawn. -/
theorem exists_anchor_skipped : ∃ (sketch : Sketch ℝ) (drag : Drag ℝ) (feature : Feature ℝ)
    (plan : Plan ℝ) (session' : Session ℝ) (result : Result ℝ),
    sketch.feature? drag.feature = some feature ∧
    drag.feature ∉ sketch.brokenFeatures sketch.flaws ∧
    Plan.make sketch (Session.fresh.seeded sketch) (some drag) = .ok plan ∧
    (∀ h ∈ plan.anchors, plan.pool.isFree ⟨h, .x⟩ = true ∧ plan.pool.isFree ⟨h, .y⟩ = true) ∧
    (∀ island ∈ plan.islands, island.rows = 0) ∧
    Session.fresh.solve ⟨id, fun _ => ""⟩ Methods.orthogonal Options.real sketch (some drag) =
      (session', .ok result) ∧
    (¬∃ places, plan.anchors.mapM result.point = .ok places ∧ meanPoint places = drag.target) ∧
    (∀ v, (sketch.apply result.updated).1.drawn? v = sketch.drawn? v) := by
  refine ⟨pointWithRadius, PointWithRadius.drag, .point 0 0 false, PointWithRadius.plan, _, _, rfl,
    ?_, PointWithRadius.made, ?_, ?_, PointWithRadius.solve_eq _, ?_, ?_⟩
  · have unbroken : pointWithRadius.brokenFeatures pointWithRadius.flaws = [] := by cbv
    rw [unbroken]
    exact List.not_mem_nil
  · intro h anchor
    obtain rfl := List.mem_singleton.mp anchor
    exact ⟨rfl, rfl⟩
  · intro island known
    obtain rfl := List.mem_singleton.mp known
    rfl
  · rintro ⟨places, found, -⟩
    obtain ⟨place, -, placed⟩ := outcome_of_mapM_eq_ok found List.mem_cons_self
    rw [Result.point, Result.value?, PointWithRadius.updated_eq] at placed
    cases placed
  · rw [PointWithRadius.updated_eq]
    exact fun _ => rfl

end PlaneSketch
