import Mathlib
import PlaneSketch.Proofs.Trimming
import PlaneSketch.Proofs.Values

/-!
A flaw takes down its own island and nothing else.

The flaws of constraints come into a solve as links between islands, and as blocks that are left
out. An island without a flaw is met by no link, so that it is there as it is when the flawed
constraints are deleted, perhaps under another number.

* `exists_island_of_untouched`: fewer links leave such an island alone.
* `Plan.Twins.recurs`: it is then solved in the same way, pulled by a drag or not.
* `contains_flaws`: so the result of a solve has each flaw reported by the island that it skips, and
  agrees elsewhere with the result for the drawing without flawed constraints.
-/

namespace PlaneSketch

/-! ### Fewer links -/

namespace Partition

variable {α : Type} {pool : Pool α} {blocks : List (Block α)} {links fewer : List (List Variable)}
  {u v w : Variable}

/-- No member of a link that counts is in the set of the variable. -/
def Untouched (pool : Pool α) (blocks : List (Block α)) (links : List (List Variable))
    (u : Variable) : Prop :=
  ∀ link ∈ links, ∀ w ∈ counting pool link, (sets pool blocks links).contains w = true →
    (sets pool blocks links).root w ≠ (sets pool blocks links).root u

theorem FreeStep.mono (subset : fewer ⊆ links) (step : FreeStep pool blocks fewer u v) :
    FreeStep pool blocks links u v := by
  cases step with
  | point freeX freeY => exact .point freeX freeY
  | block given inU inV freeU freeV => exact .block given inU inV freeU freeV
  | link given inU inV freeU freeV => exact .link (subset given) inU inV freeU freeV

theorem BoundStep.mono (subset : fewer ⊆ links) (step : BoundStep pool blocks fewer u v) :
    BoundStep pool blocks links u v := by
  cases step with
  | block given bound inU inV => exact .block given bound inU inV
  | link given bound inU inV keyU keyV => exact .link (subset given) bound inU inV keyU keyV

/-- Two members of a link that count are in the sets, unless they are one. -/
theorem contains_of_counting {link : List Variable} (listed : link ∈ links)
    (countsV : v ∈ counting pool link) (countsW : w ∈ counting pool link) (ne : v ≠ w) :
    (sets pool blocks links).contains v = true :=
  (contains_sets v).mpr (.inr ⟨_, mem_groups_iff.mpr (.inr ⟨link, listed, rfl⟩),
    two_le_length_of_ne countsV countsW ne, countsV⟩)

/-- A step that starts in an untouched set needs no link. -/
theorem step_of_untouched (untouched : Untouched pool blocks links u)
    (step : FreeStep pool blocks links v w ∨ BoundStep pool blocks links v w)
    (inside : (sets pool blocks links).root v = (sets pool blocks links).root u) :
    v = w ∨ FreeStep pool blocks fewer v w ∨ BoundStep pool blocks fewer v w := by
  by_cases ne : v = w
  · exact .inl ne
  · right
    -- no link counts in the set
    have none : ∀ link ∈ links, v ∈ counting pool link → w ∉ counting pool link :=
      fun link listed countsV countsW => untouched link listed v countsV
        (contains_of_counting listed countsV countsW ne) inside
    rcases step with step | step
    · cases step with
      | point freeX freeY => exact .inl (.point freeX freeY)
      | block given inV inW freeV freeW => exact .inl (.block given inV inW freeV freeW)
      | link given inV inW freeV freeW =>
        exact absurd (mem_counting_iff.mpr ⟨inW, Pool.mem_keys_of_isFree freeW, .inl freeW⟩)
          (none _ given (mem_counting_iff.mpr ⟨inV, Pool.mem_keys_of_isFree freeV, .inl freeV⟩))
    · cases step with
      | block given bound inV inW => exact .inr (.block given bound inV inW)
      | link given bound inV inW keyV keyW =>
        exact absurd (mem_counting_iff.mpr ⟨inW, keyW, .inr bound⟩)
          (none _ given (mem_counting_iff.mpr ⟨inV, keyV, .inr bound⟩))

/-- **An untouched set is the same with fewer links.** -/
theorem root_eq_iff_of_untouched (subset : fewer ⊆ links)
    (untouched : Untouched pool blocks links u) :
    (sets pool blocks links).root v = (sets pool blocks links).root u ↔
      (sets pool blocks fewer).root v = (sets pool blocks fewer).root u := by
  rw [sets_represents.root_eq_iff, sets_represents.root_eq_iff]
  constructor
  · intro chain
    suffices within : ∀ {v w}, Relation.EqvGen (fun v w =>
        FreeStep pool blocks links v w ∨ BoundStep pool blocks links v w) v w →
          (sets pool blocks links).root v = (sets pool blocks links).root u →
          Relation.EqvGen (fun v w =>
            FreeStep pool blocks fewer v w ∨ BoundStep pool blocks fewer v w) v w from
      within chain ((sets_represents.root_eq_iff _ _).mpr chain)
    intro v w chain
    -- the chain stays in the set, so that each step needs no link
    induction chain with
    | rel v w step =>
      intro inside
      rcases step_of_untouched untouched step inside with rfl | step'
      · exact .refl v
      · exact .rel _ _ step'
    | refl v => exact fun _ => .refl v
    | symm v w chain ih =>
      intro inside
      have back := (sets_represents.root_eq_iff v w).mpr chain
      exact (ih (back.trans inside)).symm
    | trans v w z first _ ih ih' =>
      intro inside
      have along := (sets_represents.root_eq_iff v w).mpr first
      exact (ih inside).trans _ _ _ (ih' (along.symm.trans inside))
  · exact Relation.EqvGen.mono (fun _ _ => Or.imp (.mono subset) (.mono subset)) _ _

theorem contains_iff_of_untouched (subset : fewer ⊆ links)
    (untouched : Untouched pool blocks links u)
    (inside : (sets pool blocks links).root v = (sets pool blocks links).root u) :
    (sets pool blocks links).contains v = true ↔ (sets pool blocks fewer).contains v = true := by
  constructor
  · intro contained
    rw [contains_sets] at contained ⊢
    refine contained.imp_right ?_
    rintro ⟨group, listed, two, counts⟩
    rcases mem_groups_iff.mp listed with ofBlock | ⟨link, given, rfl⟩
    · exact ⟨group, mem_groups_iff.mpr (.inl ofBlock), two, counts⟩
    · exact absurd inside (untouched link given v counts
        ((contains_sets v).mpr (.inr ⟨_, listed, two, counts⟩)))
  · rw [contains_sets, contains_sets]
    refine Or.imp_right ?_
    rintro ⟨group, listed, two, counts⟩
    refine ⟨group, mem_groups_iff.mpr ((mem_groups_iff.mp listed).imp_right ?_), two, counts⟩
    rintro ⟨link, given, rfl⟩
    exact ⟨link, subset given, rfl⟩

variable [Scalar α] {islands others : List (Island α)} {island : Island α}

/-- **An island that no link touches is left alone by having fewer links**: it is there under some
number. -/
theorem exists_island_of_untouched (done : partition pool blocks links = .ok islands)
    (done' : partition pool blocks fewer = .ok others) (subset : fewer ⊆ links)
    (member : island ∈ islands)
    (untouched : ∀ link ∈ links, ∀ w ∈ counting pool link, w ∉ island.members) :
    ∃ other ∈ others, { island with index := other.index } = other := by
  obtain ⟨root, listed, rfl⟩ := exists_root done member
  obtain ⟨u, registered, contained, rfl⟩ := mem_roots_iff.mp listed
  have alone : Untouched pool blocks links u := by
    intro link given w counts within same
    exact untouched link given w counts
      (mem_members_islandOn.mpr ⟨(mem_counting_iff.mp counts).2.1, within, same⟩)
  have roots : ∀ v, (sets pool blocks links).root v = (sets pool blocks links).root u ↔
      (sets pool blocks fewer).root v = (sets pool blocks fewer).root u := fun v =>
    root_eq_iff_of_untouched subset alone
  have rooted_eq : rooted pool (sets pool blocks links) ((sets pool blocks links).root u) =
      rooted pool (sets pool blocks fewer) ((sets pool blocks fewer).root u) := by
    rw [rooted, rooted, List.filter_filter, List.filter_filter]
    refine List.filter_congr fun v _ => ?_
    rw [Bool.eq_iff_iff]
    simp only [Bool.and_eq_true, decide_eq_true_eq]
    constructor
    · rintro ⟨inside, within⟩
      exact ⟨(roots v).mp inside, (contains_iff_of_untouched subset alone inside).mp within⟩
    · rintro ⟨inside, within⟩
      have inside' := (roots v).mpr inside
      exact ⟨inside', (contains_iff_of_untouched subset alone inside').mpr within⟩
  have blocks_eq : (blocks.filter fun block =>
      (anchor? pool block).map (sets pool blocks links).root =
        some ((sets pool blocks links).root u)) =
      blocks.filter fun block => (anchor? pool block).map (sets pool blocks fewer).root =
        some ((sets pool blocks fewer).root u) := by
    refine List.filter_congr fun block _ => ?_
    cases anchor? pool block with
    | none => rfl
    | some v => simpa using roots v
  have found : islandOn pool blocks fewer ((sets pool blocks fewer).root u) ∈ others := by
    rw [eq_of_partition done']
    exact islandOn_mem (mem_roots_iff.mpr
      ⟨u, registered, (contains_iff_of_untouched subset alone rfl).mp contained, rfl⟩)
  refine ⟨_, found, ?_⟩
  simp only [islandOn, islandAt, ← rooted.eq_1, rooted_eq, blocks_eq]

end Partition

/-! ### Where a drag pulls -/

section Pulling

variable {α : Type} [Scalar α] {pool : Pool α} {blocks : List (Block α)}
  {links : List (List Variable)} {islands : List (Island α)} {island : Island α}

/-- The positions of the free anchors that lie in an island. -/
def followers (pool : Pool α) (island : Island α) (points : List (Handle × Vec2 α)) :
    List (Vec2 α) :=
  points.filterMap fun point =>
    if pool.isFree ⟨point.1, .x⟩ && island.members.contains ⟨point.1, .x⟩ then some point.2
    else none

/-- Where a drag pulls an island: the mean of its free anchors goes along with that of all. -/
def pulled? (pool : Pool α) (island : Island α) (points : List (Handle × Vec2 α))
    (target : Vec2 α) : Option (Vec2 α) :=
  if followers pool island points = [] then none
  else some (meanPoint (followers pool island points) + (target - meanPoint (points.map (·.2))))

/-- The free anchors with the numbers of their islands. -/
def placed (pool : Pool α) (islands : List (Island α)) (points : List (Handle × Vec2 α)) :
    List (Nat × Vec2 α) :=
  points.filterMap fun point =>
    if pool.isFree ⟨point.1, .x⟩ then
      (islandOf? islands ⟨point.1, .x⟩).map fun index => (index, point.2)
    else none

/-- The anchors placed under the number of an island are those in it. -/
theorem followers_eq
    (number : ∀ v, islandOf? islands v = some island.index ↔ v ∈ island.members)
    (points : List (Handle × Vec2 α)) :
    ((placed pool islands points).filter fun pair => pair.1 = island.index).map (·.2) =
      followers pool island points := by
  induction points with
  | nil => rfl
  | cons point points ih =>
    rw [placed, followers, List.filterMap_cons, List.filterMap_cons, ← placed, ← followers]
    cases pool.isFree ⟨point.1, .x⟩ with
    | false => simpa using ih
    | true =>
      have inside := number ⟨point.1, .x⟩
      cases home : islandOf? islands ⟨point.1, .x⟩ with
      | none =>
        rw [home] at inside
        simpa [← inside] using ih
      | some index =>
        rw [home, Option.some.injEq] at inside
        by_cases same : index = island.index <;> simpa [← inside, same] using ih

theorem mem_placed_iff
    (number : ∀ v, islandOf? islands v = some island.index ↔ v ∈ island.members)
    (points : List (Handle × Vec2 α)) :
    island.index ∈ (placed pool islands points).map (·.1) ↔ followers pool island points ≠ [] := by
  rw [← followers_eq number, ne_eq, List.map_eq_nil_iff, List.filter_eq_nil_iff]
  simp [eq_comm]

/-- **A drag pulls an island by the anchors in it**, whatever its number. -/
theorem find?_dragTargets {others : List (List Variable)}
    (done : partition pool blocks links = .ok islands)
    (components : Partition.Components pool blocks others islands) {anchors : List Handle}
    {target : Vec2 α} {targets : List (Nat × Vec2 α)}
    (found : dragTargets pool islands anchors target = .ok targets) :
    ∃ points, (anchors.mapM fun h => do return (h, ← pool.point h)) = .ok points ∧
      ∀ island ∈ islands,
        Assoc.find? island.index targets = pulled? pool island points target := by
  obtain ⟨points, located, rest⟩ := bind_eq_ok_iff.mp found
  have number : ∀ island ∈ islands, ∀ v,
      islandOf? islands v = some island.index ↔ v ∈ island.members := by
    intro island known v
    rw [Partition.islandOf?_eq_some_iff done]
    constructor
    · rintro ⟨other, known', same, inside⟩
      rwa [← island_eq_of_index_eq components known' known same]
    · exact fun inside => ⟨island, known, rfl, inside⟩
  have targets_eq : targets = (firstOccurrences ((placed pool islands points).map (·.1))).map
      fun index => (index, meanPoint (((placed pool islands points).filter fun pair =>
        pair.1 = index).map (·.2)) + (target - meanPoint (points.map (·.2)))) :=
    (Except.ok.inj rest).symm
  refine ⟨points, located, fun island known => ?_⟩
  have listed : island.index ∈ firstOccurrences ((placed pool islands points).map (·.1)) ↔
      followers pool island points ≠ [] :=
    mem_firstOccurrences.trans (mem_placed_iff (number island known) points)
  rw [targets_eq, Assoc.find?_map, followers_eq (number island known), pulled?]
  by_cases none : followers pool island points = []
  · rw [if_neg fun member => listed.mp member none, if_pos none]
  · rw [if_pos (listed.mpr none), if_neg none]

/-- **The same anchors at the same positions pull islands with the same members alike.** -/
theorem Plan.drag_eq {sketch drawn : Sketch α} {start start' : Pool α} {drag : Option (Drag α)}
    {plan plan' : Plan α} {blocks blocks' : List (Block α)}
    {links links' others others' : List (List Variable)}
    (make : Plan.make sketch start drag = .ok plan)
    (make' : Plan.make drawn start' drag = .ok plan')
    (broken : ∀ d ∈ drag, d.feature ∈ drawn.brokenFeatures drawn.flaws ↔
      d.feature ∈ sketch.brokenFeatures sketch.flaws)
    (anchored : ∀ d ∈ drag, drawn.dragAnchors d.feature = sketch.dragAnchors d.feature)
    (stand : ∀ h ∈ plan.anchors, plan'.pool.point h = plan.pool.point h ∧
      plan'.pool.isFree ⟨h, .x⟩ = plan.pool.isFree ⟨h, .x⟩)
    (done : partition plan.pool blocks links = .ok plan.islands)
    (components : Partition.Components plan.pool blocks others plan.islands)
    (done' : partition plan'.pool blocks' links' = .ok plan'.islands)
    (components' : Partition.Components plan'.pool blocks' others' plan'.islands) :
    plan'.dragging = plan.dragging ∧ plan'.anchors = plan.anchors ∧
      ∀ island ∈ plan.islands, ∀ other ∈ plan'.islands, other.members = island.members →
        plan'.target? other.index = plan.target? island.index := by
  obtain ⟨dragging, pulls⟩ := Plan.drag_of_make make
  obtain ⟨dragging', pulls'⟩ := Plan.drag_of_make make'
  refine ⟨dragging'.trans dragging.symm, ?_⟩
  cases drag with
  | none =>
    obtain ⟨anchors, targets⟩ := pulls
    obtain ⟨anchors', targets'⟩ := pulls'
    refine ⟨anchors'.trans anchors.symm, fun island _ other _ _ => ?_⟩
    rw [Plan.target?, Plan.target?, targets, targets']
    rfl
  | some drag =>
    have unfit := broken drag rfl
    rcases Plan.dragged_cases pulls with ⟨isBroken, anchors, targets⟩ | ⟨sound, listed, found⟩
    · rcases Plan.dragged_cases pulls' with ⟨-, anchors', targets'⟩ | ⟨sound', -⟩
      · refine ⟨anchors'.trans anchors.symm, fun island _ other _ _ => ?_⟩
        rw [Plan.target?, Plan.target?, targets, targets']
        rfl
      · exact absurd (unfit.mpr isBroken) sound'
    · rcases Plan.dragged_cases pulls' with ⟨isBroken', -⟩ | ⟨-, listed', found'⟩
      · exact absurd (unfit.mp isBroken') sound
      · rw [anchored drag rfl, listed, Except.ok.injEq] at listed'
        rw [← listed'] at found'
        obtain ⟨points, located, pulled⟩ := find?_dragTargets done components found
        obtain ⟨points', located', pulled'⟩ := find?_dragTargets done' components' found'
        have places : points' = points := by
          rw [mapM_congr fun h anchor => by rw [(stand h anchor).1], located] at located'
          exact (Except.ok.inj located').symm
        have free : ∀ point ∈ points, plan'.pool.isFree ⟨point.1, .x⟩ =
            plan.pool.isFree ⟨point.1, .x⟩ := by
          intro point placed
          obtain ⟨h, anchor, same⟩ := mem_of_mapM_eq_ok located placed
          obtain ⟨position, -, same⟩ := bind_eq_ok_iff.mp same
          obtain rfl := Except.ok.inj same
          exact (stand h anchor).2
        refine ⟨listed'.symm, fun island known other known' same => ?_⟩
        have followers_eq : followers plan'.pool other points = followers plan.pool island points :=
          List.filterMap_congr fun point placed => by rw [free point placed, same]
        rw [Plan.target?, Plan.target?, pulled island known, pulled' other known', places, pulled?,
          pulled?, followers_eq]

end Pulling

/-! ### The same island in two plans -/

section Renumbering

variable {α : Type} [Scalar α] {plan plan' : Plan α} {island other : Island α}

/-- One island in two plans with the same pool: it has no flaw in either, a drag pulls it to the
same target, and all that differs is its number. -/
structure Plan.Twins (plan plan' : Plan α) (island other : Island α) : Prop where
  pool : plan'.pool = plan.pool
  dragging : plan'.dragging = plan.dragging
  anchors : plan'.anchors = plan.anchors
  target : plan'.target? other.index = plan.target? island.index
  renumbered : { island with index := other.index } = other
  sound : plan.faultsOf island.index = []
  sound' : plan'.faultsOf other.index = []

/-- **Twins are solved and reported in the same way.** -/
theorem Plan.Twins.recurs (twins : Plan.Twins plan plan' island other) :
    plan.Recurs plan' island other where
  renumbered := twins.renumbered
  dragging := twins.dragging
  anchors := twins.anchors
  target := twins.target
  faults := twins.sound'.trans twins.sound.symm
  members_stand v _ := by rw [twins.pool]
  blocks_stand _ _ v _ := by rw [twins.pool]
  bindings _ _ v _ := by rw [twins.pool]

end Renumbering

/-! ### A whole solve -/

section Agreeing

variable {α : Type} [Scalar α] {sketch : Sketch α} {start : Pool α} {plan plan' : Plan α}
  {methods : Methods α} {options : Options α} {blocks blocks' : List (Block α)} {island : Island α}

/-- Without the flawed constraints, blocks and pool are the same, and links are fewer. -/
theorem Plan.Made.of_trimmed (made : Plan.Made sketch start plan blocks)
    (made' : Plan.Made sketch.trimmed start plan' blocks') :
    plan'.pool = plan.pool ∧ blocks' = blocks ∧
      partition plan.pool blocks (sketch.trimmed.flaws.map (Plan.touched sketch plan.pool)) =
        .ok plan'.islands := by
  have compiled := made'.compiled
  rw [sketch.compiled_trimmed, made.compiled, Except.ok.injEq, Prod.mk.injEq] at compiled
  obtain ⟨pool, same⟩ := compiled
  have islands := made'.islands
  have touched : Plan.touched sketch.trimmed plan.pool = Plan.touched sketch plan.pool := by
    funext flaw
    exact Sketch.closure_congr sketch.alike_trimmed (.refl _) flaw.references
  rw [Plan.islandsOf, ← pool, ← same, touched] at islands
  exact ⟨pool.symm, same.symm, islands⟩

/-- **An island without a flaw has a twin without the flawed constraints.** -/
theorem Plan.Made.exists_twin {drag : Option (Drag α)} {links : List (List Variable)}
    (make : Plan.make sketch start drag = .ok plan)
    (make' : Plan.make sketch.trimmed start drag = .ok plan')
    (made : Plan.Made sketch start plan blocks)
    (made' : Plan.Made sketch.trimmed start plan' blocks')
    (components : Partition.Components plan.pool blocks
      (sketch.flaws.map (Plan.touched sketch plan.pool)) plan.islands)
    (components' : Partition.Components plan'.pool blocks' links plan'.islands)
    (known : island ∈ plan.islands) (sound : plan.faultsOf island.index = []) :
    ∃ other ∈ plan'.islands, Plan.Twins plan plan' island other := by
  obtain ⟨pool, -, islands⟩ := made.of_trimmed made'
  have subset : sketch.trimmed.flaws.map (Plan.touched sketch plan.pool) ⊆
      sketch.flaws.map (Plan.touched sketch plan.pool) :=
    List.map_subset _ sketch.flaws_trimmed_subset
  obtain ⟨other, known', twin⟩ := Partition.exists_island_of_untouched made.islands islands subset
    known (by
      intro link listed w counts
      obtain ⟨flaw, flawed, rfl⟩ := List.mem_map.mp listed
      exact made.untouched known sound flawed counts)
  have members : other.members = island.members := by
    rw [← twin]
    rfl
  have sound' : plan'.faultsOf other.index = [] := by
    rw [made'.faultsOf_eq, List.filter_eq_nil_iff]
    intro flaw flawed home
    rw [decide_eq_true_eq] at home
    obtain ⟨v, counts, inside⟩ :=
      (made'.homeOf?_eq_index_iff components' flawed known').mp home
    rw [members] at inside
    rw [pool, Plan.touched, Sketch.closure_congr sketch.alike_trimmed (.refl _)] at counts
    exact made.untouched known sound (sketch.flaws_trimmed_subset flawed) counts inside
  obtain ⟨dragging, anchors, target⟩ :=
    Plan.drag_eq make make' (fun d _ => by rw [sketch.brokenFeatures_trimmed])
      (fun d _ => Sketch.dragAnchors_congr sketch.alike_trimmed d.feature)
      (fun h _ => by rw [pool]; exact ⟨rfl, rfl⟩) made.islands components
      made'.islands components'
  exact ⟨other, known', pool, dragging, anchors, target island known other known' members, twin,
    sound, sound'⟩

/-- Both results say the same of every island that the first does not skip, number apart. -/
def Result.AgreesOutside (result other : Result α) : Prop :=
  ∀ report ∈ result.islands, report.status ≠ .skipped →
    (∃ report' ∈ other.islands, { report' with index := report.index } = report) ∧
      ∀ v ∈ report.unknowns, other.value? v = result.value? v

variable {ν : Type} [Ordered ν] {numerals : Numerals ν α} {session session' : Session α}
  {settings : Options ν} {drag : Option (Drag α)} {result : Result α}

/-- **Without its flawed constraints a drawing is solved to the same values** in every island that
was not skipped. -/
theorem agreesOutside_of_trimmed {session'' : Session α} {result' : Result α}
    (done : session.solve numerals methods settings sketch drag = (session', .ok result))
    (done' : session.solve numerals methods settings sketch.trimmed drag =
      (session'', .ok result')) :
    result.AgreesOutside result' := by
  have sketch_pool : Pool.ofSketch sketch.trimmed = Pool.ofSketch sketch := sketch.ofSketch_trimmed
  obtain ⟨plan, blocks, make, made, components, told⟩ := exists_told_of_solve done
  obtain ⟨plan', blocks', make', made', components', told'⟩ := exists_told_of_solve done'
  rw [Session.seeded, sketch_pool] at make' made'
  rw [sketch_pool] at told'
  intro report member unskipped
  rcases told.report_cases member with ⟨island, known, reported⟩ | ⟨flaw, -, orphan⟩
  · have sound := reported.sound unskipped
    obtain ⟨other, known', twins⟩ :=
      made.exists_twin make make' made' components components' known sound
    have recurs := twins.recurs
    constructor
    · obtain ⟨report', placed', reported'⟩ := told'.exists_report known'
      exact ⟨report', placed', recurs.report_eq rfl reported reported'⟩
    · intro v inside
      rw [reported.unknowns] at inside
      obtain ⟨s, solved, values⟩ := told.value island known sound
      obtain ⟨s', solved', values'⟩ := told'.value other known' twins.sound'
      rw [values v inside, values' v (recurs.members ▸ inside),
        recurs.value_eq solved solved' inside]
  · exact absurd orphan.flaws.2.1 unskipped

/-- **A flaw takes down its own island and nothing else.** -/
theorem contains_flaws
    (done : session.solve numerals methods settings sketch drag = (session', .ok result)) :
    ∃ pool blocks,
      Plan.compiled sketch (session.seeded sketch) sketch.flaws = .ok (pool, blocks) ∧
      result.Blames sketch pool ∧
      ∀ session'' result', session.solve numerals methods settings sketch.trimmed drag =
        (session'', .ok result') → result.AgreesOutside result' := by
  obtain ⟨pool, blocks, compiled, blames⟩ := blames_of_solve done
  exact ⟨pool, blocks, compiled, blames, fun _ _ done' => agreesOutside_of_trimmed done done'⟩

end Agreeing

/-! ### A drawing with two flaws -/

/-- A line from a fixed point that has to be level, and two flaws elsewhere: a ratio of radii is
demanded of two points, and a circle goes around nothing that exists. -/
noncomputable def frayed : Sketch ℝ where
  features := ⟨[⟨some (.point 0 0 false), 0⟩, ⟨some (.point 1 0 false), 0⟩,
    ⟨some (.line ⟨0, 0⟩ ⟨1, 0⟩ false), 0⟩, ⟨some (.point 0 1 false), 0⟩,
    ⟨some (.point 1 1 false), 0⟩, ⟨some (.circle ⟨9, 0⟩ 1 false), 0⟩]⟩
  constraints := ⟨[⟨some (.fixed ⟨0, 0⟩ ⟨0, 0⟩), 0⟩, ⟨some (.alongAxis ⟨2, 0⟩ .leftRight), 0⟩,
    ⟨some (.plain .radiusEqual [⟨3, 0⟩, ⟨4, 0⟩] none none), 0⟩]⟩
  groups := []

namespace Frayed

noncomputable def pool : Pool ℝ := (Pool.ofSketch frayed).pin ⟨0, 0⟩ ⟨0, 0⟩ ⟨0, 0⟩

noncomputable def circle : Flaw ℝ := .feature ⟨5, 0⟩ .circle [⟨9, 0⟩] (.dead ⟨9, 0⟩ false)

noncomputable def ratio : Flaw ℝ :=
  .constraint ⟨2, 0⟩ .radiusEqual [⟨3, 0⟩, ⟨4, 0⟩] (.kinds [.point, .point])

/-- The ratio holds two points together. -/
noncomputable def plan : Plan ℝ where
  flaws := [circle, ratio]
  pool := pool
  islands := [Levelled.island, ⟨1, coordinates [⟨3, 0⟩, ⟨4, 0⟩], [], []⟩,
    ⟨2, [⟨⟨5, 0⟩, .r⟩], [], []⟩]
  faults := [(2, circle), (1, ratio)]
  orphans := []
  dragging := false
  anchors := []
  targets := []

/-- Without the ratio each of them is by itself. -/
noncomputable def plan' : Plan ℝ where
  flaws := [circle]
  pool := pool
  islands := [Levelled.island, ⟨1, coordinates [⟨3, 0⟩], [], []⟩,
    ⟨2, coordinates [⟨4, 0⟩], [], []⟩, ⟨3, [⟨⟨5, 0⟩, .r⟩], [], []⟩]
  faults := [(3, circle)]
  orphans := []
  dragging := false
  anchors := []
  targets := []

theorem made : Plan.make frayed (Session.fresh.seeded frayed) none = .ok plan := by
  cbv

theorem made' : Plan.make frayed.trimmed (Session.fresh.seeded frayed.trimmed) none =
    .ok plan' := by
  cbv

/-- What is demanded of the level line. -/
noncomputable def system : Equations ℝ :=
  ⟨Levelled.island.blocks, Levelled.island.unknowns, pool.valuation⟩

/-- The second point of the level line stays where it is drawn. -/
noncomputable def level : Plan.Solved ℝ :=
  ⟨Levelled.island, system, system.outcomeAt Options.real [1, 0] 0⟩

theorem at_rest : ∀ r ∈ system.residuals [1, 0], r = 0 := by
  have residuals : system.residuals [1, 0] = [0 - 0] := by cbv
  simp [residuals]

theorem level_diagnosed (pool : Pool ℝ) :
    diagnose Methods.orthogonal Options.real pool system level.outcome =
      .ok Levelled.diagnosis :=
  diagnose_of_independent (Equations.converged_at_rest at_rest Options.tolerance_real_pos 0)
    ((congrArg (Rank.numeric? _ · _) Levelled.jacobian_eq).trans Levelled.rank_eq)

theorem level_solved {plan : Plan ℝ} (same : plan.pool = pool) (undragged : plan.dragging = false)
    (unpulled : plan.targets = []) :
    plan.solved Methods.orthogonal Options.real Levelled.island = .ok level := by
  obtain ⟨values, registered⟩ : ∃ values, islandValues pool Levelled.island = .ok values :=
    ⟨_, by cbv⟩
  have start : Levelled.island.unknowns.mapM pool.value = .ok [1, 0] := by cbv
  rw [← same] at registered start
  have solved := solved_at_rest Methods.orthogonal undragged unpulled registered start
    (by rw [same]; exact at_rest) Options.tolerance_real_pos
  rw [same] at solved
  exact solved

noncomputable def gathered : Session.Gathered ℝ :=
  (((⟨pool, .fresh, [], []⟩ : Session.Gathered ℝ).take .fresh level Levelled.diagnosis).skip
    ⟨1, coordinates [⟨3, 0⟩, ⟨4, 0⟩], [], []⟩ [ratio]).skip ⟨2, [⟨⟨5, 0⟩, .r⟩], [], []⟩ [circle]

noncomputable def result : Result ℝ :=
  ⟨(Session.addBound plan.islands gathered).updated, gathered.reports, [circle, ratio]⟩

theorem solve_eq : Session.fresh.solve ⟨id, fun _ => ""⟩ Methods.orthogonal Options.real frayed
    none = (gathered.session, .ok result) := by
  have all : plan.solvedAll Methods.orthogonal Options.real = .ok [level] :=
    mapM_eq_ok_iff.mpr (.cons (level_solved rfl rfl rfl) .nil)
  have gathering : Session.gather Methods.orthogonal Options.real plan .fresh [level] plan.islands
      ⟨plan.pool, .fresh, [], []⟩ = (gathered, none) := by
    have second : plan.faultsOf 1 = [ratio] := rfl
    have third : plan.faultsOf 2 = [circle] := rfl
    calc Session.gather Methods.orthogonal Options.real plan .fresh _ [_, _, _] _
      _ = _ := Session.gather_cons_of_sound rfl rfl (level_diagnosed _)
      _ = _ := Session.gather_cons_of_faulty (by simp [second])
      _ = _ := Session.gather_cons_of_faulty (by simp [third])
  rw [Session.solve_of_isUsable Options.isUsable_real made]
  exact Session.carryOut_of_gather all gathering rfl

/-- The points that the ratio held together stay where they are drawn. -/
noncomputable def lone : Nat → Handle → List ℝ → Plan.Solved ℝ := Lone.stay pool

noncomputable def gathered' : Session.Gathered ℝ :=
  ((((⟨pool, .fresh, [], []⟩ : Session.Gathered ℝ).take .fresh level Levelled.diagnosis).take
    .fresh (lone 1 ⟨3, 0⟩ [0, 1]) Lone.diagnosis).take .fresh (lone 2 ⟨4, 0⟩ [1, 1])
      Lone.diagnosis).skip ⟨3, [⟨⟨5, 0⟩, .r⟩], [], []⟩ [circle]

noncomputable def result' : Result ℝ :=
  ⟨(Session.addBound plan'.islands gathered').updated, gathered'.reports, [circle]⟩

theorem solve_trimmed_eq : Session.fresh.solve ⟨id, fun _ => ""⟩ Methods.orthogonal Options.real
    frayed.trimmed none = (gathered'.session, .ok result') := by
  obtain ⟨values, registered⟩ :
      ∃ values, islandValues plan'.pool (Lone.island 1 ⟨3, 0⟩) = .ok values := ⟨_, by cbv⟩
  obtain ⟨values', registered'⟩ :
      ∃ values, islandValues plan'.pool (Lone.island 2 ⟨4, 0⟩) = .ok values := ⟨_, by cbv⟩
  have all : plan'.solvedAll Methods.orthogonal Options.real =
      .ok [level, lone 1 ⟨3, 0⟩ [0, 1], lone 2 ⟨4, 0⟩ [1, 1]] :=
    mapM_eq_ok_iff.mpr (.cons (level_solved rfl rfl rfl)
      (.cons (Lone.solved _ rfl rfl registered (by cbv))
        (.cons (Lone.solved _ rfl rfl registered' (by cbv)) .nil)))
  have gathering : Session.gather Methods.orthogonal Options.real plan' .fresh
      [level, lone 1 ⟨3, 0⟩ [0, 1], lone 2 ⟨4, 0⟩ [1, 1]] plan'.islands
        ⟨plan'.pool, .fresh, [], []⟩ = (gathered', none) := by
    have fourth : plan'.faultsOf 3 = [circle] := rfl
    calc Session.gather Methods.orthogonal Options.real plan' .fresh _ [_, _, _, _] _
      _ = _ := Session.gather_cons_of_sound rfl rfl (level_diagnosed _)
      _ = _ := Session.gather_cons_of_sound rfl rfl (Lone.diagnosed _ _ _ _ _)
      _ = _ := Session.gather_cons_of_sound rfl rfl (Lone.diagnosed _ _ _ _ _)
      _ = _ := Session.gather_cons_of_faulty (by simp [fourth])
  rw [Session.solve_of_isUsable Options.isUsable_real made']
  exact Session.carryOut_of_gather all gathering rfl

end Frayed

theorem contains_flaws_frayed :
    Session.fresh.solve ⟨id, fun _ => ""⟩ Methods.orthogonal Options.real frayed none =
      (Frayed.gathered.session, .ok Frayed.result) ∧
    Session.fresh.solve ⟨id, fun _ => ""⟩ Methods.orthogonal Options.real frayed.trimmed none =
      (Frayed.gathered'.session, .ok Frayed.result') ∧
    ∃ pool blocks,
      Plan.compiled frayed (Session.fresh.seeded frayed) frayed.flaws = .ok (pool, blocks) ∧
      Frayed.result.Blames frayed pool ∧ Frayed.result.AgreesOutside Frayed.result' := by
  obtain ⟨pool, blocks, compiled, blames, agrees⟩ := contains_flaws Frayed.solve_eq
  exact ⟨Frayed.solve_eq, Frayed.solve_trimmed_eq, pool, blocks, compiled, blames,
    agrees _ _ Frayed.solve_trimmed_eq⟩

end PlaneSketch
