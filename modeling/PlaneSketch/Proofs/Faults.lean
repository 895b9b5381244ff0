import Mathlib
import PlaneSketch.Proofs.Closure
import PlaneSketch.Proofs.Success

/-!
Which island a flaw keeps from being solved.

What a flaw touches is one of the links that the islands were grouped with, so that the part of it
that counts is never torn apart.

* `home?_eq_some_iff`: a flaw belongs to the island that holds a variable that counts in it.
* `touched_subset`: all free variables that a flaw touches lie in the island that it belongs to.
* `faults_perm`: every flaw belongs to one island, or is an orphan.
-/

namespace PlaneSketch

/-! ### Members of islands -/

namespace Partition

variable {α : Type} [Scalar α] {pool : Pool α} {blocks : List (Block α)}
  {links : List (List Variable)} {islands : List (Island α)} {island other : Island α}
  {u v root : Variable}

omit [Scalar α] in
theorem mem_members_islandOn :
    v ∈ (islandOn pool blocks links root).members ↔
      v ∈ pool.keys ∧ (sets pool blocks links).contains v = true ∧
        (sets pool blocks links).root v = root := by
  rw [islandOn, members_islandAt, mem_rooted_iff]

theorem exists_root (done : partition pool blocks links = .ok islands) (member : island ∈ islands) :
    ∃ root ∈ roots pool (sets pool blocks links), island = islandOn pool blocks links root := by
  rw [eq_of_partition done] at member
  exact mem_grouped_iff.mp member

/-- The island of a variable in the sets is that of its root. -/
theorem island_eq_of_mem (done : partition pool blocks links = .ok islands)
    (member : island ∈ islands) (inside : v ∈ island.members) :
    island = islandOn pool blocks links ((sets pool blocks links).root v) := by
  obtain ⟨root, -, rfl⟩ := exists_root done member
  rw [(mem_members_islandOn.mp inside).2.2]

/-- No variable is in two islands. -/
theorem island_unique (done : partition pool blocks links = .ok islands)
    (member : island ∈ islands) (inside : v ∈ island.members) (member' : other ∈ islands)
    (inside' : v ∈ other.members) : island = other :=
  (island_eq_of_mem done member inside).trans (island_eq_of_mem done member' inside').symm

theorem exists_island_of_contains (done : partition pool blocks links = .ok islands)
    (registered : v ∈ pool.keys) (contained : (sets pool blocks links).contains v = true) :
    ∃ island ∈ islands, v ∈ island.members := by
  refine ⟨islandOn pool blocks links ((sets pool blocks links).root v), ?_,
    mem_members_islandOn.mpr ⟨registered, contained, rfl⟩⟩
  rw [eq_of_partition done]
  exact islandOn_mem (mem_roots_iff.mpr ⟨v, registered, contained, rfl⟩)

theorem exists_island_of_free (done : partition pool blocks links = .ok islands)
    (free : pool.isFree v = true) : ∃ island ∈ islands, v ∈ island.members :=
  exists_island_of_contains done (Pool.mem_keys_of_isFree free) ((contains_sets v).mpr (.inl free))

theorem mem_keys_of_mem (done : partition pool blocks links = .ok islands)
    (member : island ∈ islands) (inside : v ∈ island.members) : v ∈ pool.keys := by
  obtain ⟨root, -, rfl⟩ := exists_root done member
  exact (mem_members_islandOn.mp inside).1

theorem mem_unknowns_of_free (done : partition pool blocks links = .ok islands)
    (member : island ∈ islands) (inside : v ∈ island.members) (free : pool.isFree v = true) :
    v ∈ island.unknowns := by
  obtain ⟨root, -, rfl⟩ := exists_root done member
  exact mem_unknowns_islandAt.mpr ⟨free, (mem_members_islandOn.mp inside).2.2⟩

theorem islandOf?_eq_some_iff (done : partition pool blocks links = .ok islands) {index : Nat} :
    islandOf? islands v = some index ↔
      ∃ island ∈ islands, island.index = index ∧ v ∈ island.members := by
  rw [islandOf?, Option.map_eq_some_iff]
  constructor
  · rintro ⟨island, found, rfl⟩
    exact ⟨island, List.mem_of_find?_eq_some found, rfl, by simpa using List.find?_some found⟩
  · rintro ⟨island, member, rfl, inside⟩
    cases found : islands.find? fun island => island.members.contains v with
    | none =>
      have absent := List.find?_eq_none.mp found island member
      simp [inside] at absent
    | some other =>
      refine ⟨other, rfl, congrArg Island.index ?_⟩
      exact island_unique done (List.mem_of_find?_eq_some found)
        (by simpa using List.find?_some found) member inside

/-- The members of a link that count. -/
def counting (pool : Pool α) (link : List Variable) : List Variable :=
  relevant pool (link.filter pool.contains)

omit [Scalar α] in
theorem mem_counting_iff {link : List Variable} :
    v ∈ counting pool link ↔ v ∈ link ∧ v ∈ pool.keys ∧
      (pool.isFree v = true ∨ ∀ w ∈ link, pool.isFree w = false) := by
  rw [counting, mem_relevant_iff, bound_filter_iff, List.mem_filter, Pool.contains_iff, and_assoc]

/-- **What counts in a link stays together.** -/
theorem mem_members_of_link (done : partition pool blocks links = .ok islands)
    {link : List Variable} (listed : link ∈ links) (countsU : u ∈ counting pool link)
    (countsV : v ∈ counting pool link) (member : island ∈ islands) (inside : u ∈ island.members) :
    v ∈ island.members := by
  obtain ⟨root, -, rfl⟩ := exists_root done member
  obtain ⟨-, contained, rooted⟩ := mem_members_islandOn.mp inside
  have group : counting pool link ∈ groups pool blocks links :=
    mem_groups_iff.mpr (.inr ⟨link, listed, rfl⟩)
  have same : (sets pool blocks links).root u = (sets pool blocks links).root v :=
    (sets_represents.root_eq_iff u v).mpr (.rel _ _ (step_of_group group countsU countsV))
  refine mem_members_islandOn.mpr ⟨(mem_counting_iff.mp countsV).2.1, ?_, same ▸ rooted⟩
  by_cases itself : u = v
  · rwa [← itself]
  · rw [contains_sets]
    exact .inr ⟨_, group, two_le_length_of_ne countsU countsV itself, countsV⟩

end Partition

/-! ### The home of a link -/

namespace Plan

variable {α : Type} [Scalar α]

theorem least?_eq_min? (numbers : List Nat) : least? numbers = numbers.min? := by
  cases numbers <;> rfl

/-- Numbers that are all the same have that one as the smallest. -/
theorem least?_eq_some_of_forall {numbers : List Nat} {n : Nat} (listed : n ∈ numbers)
    (same : ∀ m ∈ numbers, m = n) : least? numbers = some n := by
  rw [least?_eq_min?, List.min?_eq_some_iff]
  exact ⟨listed, fun m member => (same m member).ge⟩

theorem mem_of_least? {numbers : List Nat} {n : Nat} (least : least? numbers = some n) :
    n ∈ numbers := by
  rw [least?_eq_min?] at least
  exact List.min?_mem least

section Home

variable {pool : Pool α} {blocks : List (Block α)} {links : List (List Variable)}
  {islands : List (Island α)} {island : Island α} {link : List Variable} {index : Nat}

/-- The numbers of the islands of the free members of a link, or of the bound ones. -/
def homes (pool : Pool α) (islands : List (Island α)) (link : List Variable) (free : Bool) :
    List Nat :=
  (link.filter fun v => pool.isFree v = free).filterMap (islandOf? islands)

theorem home?_eq : home? pool islands link =
    (least? (homes pool islands link true)).or (least? (homes pool islands link false)) := rfl

theorem mem_homes_iff (done : partition pool blocks links = .ok islands) {free : Bool} :
    index ∈ homes pool islands link free ↔ ∃ v ∈ link, pool.isFree v = free ∧
      ∃ island ∈ islands, island.index = index ∧ v ∈ island.members := by
  simp only [homes, List.mem_filterMap, List.mem_filter, decide_eq_true_eq,
    Partition.islandOf?_eq_some_iff done, and_assoc]

/-- Every free variable has an island. -/
theorem homes_eq_nil_iff (done : partition pool blocks links = .ok islands) :
    homes pool islands link true = [] ↔ ∀ w ∈ link, pool.isFree w = false := by
  constructor
  · intro none w member
    by_contra free
    rw [Bool.not_eq_false] at free
    obtain ⟨island, known, inside⟩ := Partition.exists_island_of_free done free
    have here := (mem_homes_iff done).mpr ⟨w, member, free, island, known, rfl, inside⟩
    rw [none] at here
    cases here
  · intro bound
    rw [List.eq_nil_iff_forall_not_mem]
    intro i here
    obtain ⟨w, member, free, -⟩ := (mem_homes_iff done).mp here
    rw [bound w member] at free
    cases free

/-- The home is that of the free members, or of the bound ones when nothing is free. -/
theorem mem_homes_of_home? (done : partition pool blocks links = .ok islands)
    (found : home? pool islands link = some index) :
    index ∈ homes pool islands link true ∨
      index ∈ homes pool islands link false ∧ ∀ w ∈ link, pool.isFree w = false := by
  rw [home?_eq] at found
  cases first : least? (homes pool islands link true) with
  | some i =>
    obtain rfl : i = index := by simpa [first] using found
    exact .inl (mem_of_least? first)
  | none =>
    rw [first, Option.none_or] at found
    rw [least?_eq_min?, List.min?_eq_none_iff] at first
    exact .inr ⟨mem_of_least? found, (homes_eq_nil_iff done).mp first⟩

/-- The home of a link holds some of it. -/
theorem exists_of_home? (done : partition pool blocks links = .ok islands)
    (found : home? pool islands link = some index) :
    ∃ v ∈ link, ∃ island ∈ islands, island.index = index ∧ v ∈ island.members := by
  rcases mem_homes_of_home? done found with first | ⟨second, -⟩
  · obtain ⟨v, member, -, held⟩ := (mem_homes_iff done).mp first
    exact ⟨v, member, held⟩
  · obtain ⟨v, member, -, held⟩ := (mem_homes_iff done).mp second
    exact ⟨v, member, held⟩

/-- What counts in a link has one island number only. -/
theorem least?_homes (done : partition pool blocks links = .ok islands) (listed : link ∈ links)
    (known : island ∈ islands) {v : Variable} (counts : v ∈ Partition.counting pool link)
    (inside : v ∈ island.members) :
    least? (homes pool islands link (pool.isFree v)) = some island.index := by
  obtain ⟨member, -, kind⟩ := Partition.mem_counting_iff.mp counts
  refine least?_eq_some_of_forall
    ((mem_homes_iff done).mpr ⟨v, member, rfl, island, known, rfl, inside⟩) ?_
  intro m number
  obtain ⟨w, member', same, other, known', rfl, inside'⟩ := (mem_homes_iff done).mp number
  have counts' : w ∈ Partition.counting pool link := Partition.mem_counting_iff.mpr
    ⟨member', Partition.mem_keys_of_mem done known' inside', by rwa [same]⟩
  have joined := Partition.mem_members_of_link done listed counts counts' known inside
  rw [Partition.island_unique done known' inside' known joined]

/-- **A link belongs to the island of what counts in it.** -/
theorem home?_eq_some_iff (done : partition pool blocks links = .ok islands)
    (listed : link ∈ links) :
    home? pool islands link = some index ↔
      ∃ island ∈ islands, island.index = index ∧
        ∃ v ∈ Partition.counting pool link, v ∈ island.members := by
  constructor
  · intro found
    rcases mem_homes_of_home? done found with first | ⟨second, bound⟩
    · obtain ⟨v, member, free, island, known, number, inside⟩ := (mem_homes_iff done).mp first
      exact ⟨island, known, number, v, Partition.mem_counting_iff.mpr
        ⟨member, Partition.mem_keys_of_mem done known inside, .inl free⟩, inside⟩
    · obtain ⟨v, member, -, island, known, number, inside⟩ := (mem_homes_iff done).mp second
      exact ⟨island, known, number, v, Partition.mem_counting_iff.mpr
        ⟨member, Partition.mem_keys_of_mem done known inside, .inr bound⟩, inside⟩
  · rintro ⟨island, known, rfl, v, counts, inside⟩
    have least := least?_homes done listed known counts inside
    obtain ⟨member, -, kind⟩ := Partition.mem_counting_iff.mp counts
    rw [home?_eq]
    cases free : pool.isFree v with
    | true =>
      rw [free] at least
      rw [least, Option.some_or]
    | false =>
      have bound := kind.resolve_left (by simp [free])
      rw [free] at least
      rw [(homes_eq_nil_iff done).mpr bound, least]
      rfl

end Home

end Plan

/-! ### Flaws and their homes -/

/-- Items sorted into places, and those that have none: nothing is lost and nothing is doubled. -/
theorem perm_of_places {σ : Type} (place? : σ → Option Nat) {places : List Nat}
    (distinct : places.Nodup) (items : List σ)
    (known : ∀ a ∈ items, ∀ i, place? a = some i → i ∈ places) :
    ((places.flatMap fun i => items.filter fun a => place? a = some i) ++
      items.filter fun a => (place? a).isNone).Perm items := by
  induction items with
  | nil => simp
  | cons a items ih =>
    have rest := ih fun b listed => known b (List.mem_cons_of_mem a listed)
    cases home : place? a with
    | none =>
      simp only [List.filter_cons, home, reduceCtorEq, decide_false, Option.isNone_none,
        Bool.false_eq_true, if_false, if_true]
      exact List.perm_middle.trans (rest.cons a)
    | some i =>
      -- the item goes to one of the places, and all others keep theirs
      obtain ⟨before, after, rfl⟩ := List.append_of_mem (known a List.mem_cons_self i home)
      rw [List.nodup_middle, List.nodup_cons, List.mem_append, not_or] at distinct
      have others : ∀ places : List Nat, i ∉ places →
          (places.flatMap fun j => (a :: items).filter fun b => place? b = some j) =
            places.flatMap fun j => items.filter fun b => place? b = some j := by
        intro places absent
        refine List.flatMap_congr fun j listed => ?_
        have other : i ≠ j := fun same => absent (same ▸ listed)
        simp [home, other]
      rw [List.flatMap_append, List.flatMap_cons, others before distinct.1.1,
        others after distinct.1.2]
      rw [List.flatMap_append, List.flatMap_cons] at rest
      simp only [List.filter_cons, home, decide_true, Option.isNone_some, Bool.false_eq_true,
        if_false, if_true, List.cons_append, List.append_assoc] at rest ⊢
      exact List.perm_middle.trans (rest.cons a)

namespace Plan

variable {α : Type} [Scalar α]

/-- The number of the island that a flaw belongs to. -/
def homeOf? (plan : Plan α) (sketch : Sketch α) (flaw : Flaw α) : Option Nat :=
  home? plan.pool plan.islands (touched sketch plan.pool flaw)

namespace Made

variable {sketch : Sketch α} {start : Pool α} {plan : Plan α} {blocks : List (Block α)}
  {links : List (List Variable)} {flaw : Flaw α} {island : Island α}

theorem faultsOf_eq (made : Plan.Made sketch start plan blocks) (index : Nat) :
    plan.faultsOf index =
      sketch.flaws.filter fun flaw => plan.homeOf? sketch flaw = some index := by
  have faults : plan.faults = sketch.flaws.filterMap fun flaw =>
      (plan.homeOf? sketch flaw).map fun home => (home, flaw) := by
    have allocated : plan.faults = (allocate sketch plan.pool plan.islands sketch.flaws).1 :=
      congrArg Prod.fst made.allocated
    rw [allocated, allocate, List.filterMap_map]
    rfl
  rw [Plan.faultsOf, faults]
  induction sketch.flaws with
  | nil => rfl
  | cons flaw flaws ih =>
    rw [List.filterMap_cons, List.filter_cons]
    cases plan.homeOf? sketch flaw with
    | none => simpa using ih
    | some home => by_cases same : home = index <;> simpa [same] using ih

theorem orphans_eq (made : Plan.Made sketch start plan blocks) :
    plan.orphans = sketch.flaws.filter fun flaw => (plan.homeOf? sketch flaw).isNone := by
  have orphans : plan.orphans = (allocate sketch plan.pool plan.islands sketch.flaws).2 :=
    congrArg Prod.snd made.allocated
  rw [orphans, allocate, List.filter_map, List.map_map]
  exact List.map_id _

theorem link_mem (listed : flaw ∈ sketch.flaws) :
    touched sketch plan.pool flaw ∈ sketch.flaws.map (touched sketch plan.pool) :=
  List.mem_map_of_mem listed

/-- **A flaw belongs to the island of what counts in it.** -/
theorem homeOf?_eq_some_iff (made : Plan.Made sketch start plan blocks)
    (listed : flaw ∈ sketch.flaws) {index : Nat} :
    plan.homeOf? sketch flaw = some index ↔
      ∃ island ∈ plan.islands, island.index = index ∧
        ∃ v ∈ Partition.counting plan.pool (touched sketch plan.pool flaw), v ∈ island.members :=
  home?_eq_some_iff made.islands (link_mem listed)

/-- A flaw belongs to an island exactly when something that counts in it lies there. -/
theorem homeOf?_eq_index_iff (made : Plan.Made sketch start plan blocks)
    (components : Partition.Components plan.pool blocks links plan.islands)
    (listed : flaw ∈ sketch.flaws) (known : island ∈ plan.islands) :
    plan.homeOf? sketch flaw = some island.index ↔
      ∃ v ∈ Partition.counting plan.pool (touched sketch plan.pool flaw), v ∈ island.members := by
  rw [made.homeOf?_eq_some_iff listed]
  constructor
  · rintro ⟨other, known', number, held⟩
    rwa [← island_eq_of_index_eq components known' known number]
  · exact fun held => ⟨island, known, rfl, held⟩

/-- **Every flaw is reported once**, by an island or as an orphan. -/
theorem faults_perm (made : Plan.Made sketch start plan blocks)
    (components : Partition.Components plan.pool blocks links plan.islands) :
    ((plan.islands.flatMap fun island => plan.faultsOf island.index) ++ plan.orphans).Perm
      sketch.flaws := by
  have places := perm_of_places (plan.homeOf? sketch) (nodup_indices components) sketch.flaws
    fun flaw listed i home => by
      obtain ⟨island, known, rfl, -⟩ := (made.homeOf?_eq_some_iff listed).mp home
      exact List.mem_map_of_mem known
  rw [List.flatMap_map] at places
  rw [made.orphans_eq]
  simpa only [made.faultsOf_eq] using places

/-- **A flaw takes all that it touches along**: its free variables lie in its island. -/
theorem touched_subset (made : Plan.Made sketch start plan blocks)
    (components : Partition.Components plan.pool blocks links plan.islands)
    (known : island ∈ plan.islands) (listed : flaw ∈ plan.faultsOf island.index)
    {v : Variable} (touches : v ∈ touched sketch plan.pool flaw)
    (free : plan.pool.isFree v = true) : v ∈ island.unknowns := by
  rw [made.faultsOf_eq, List.mem_filter, decide_eq_true_eq] at listed
  obtain ⟨flawed, home⟩ := listed
  obtain ⟨w, counts, inside⟩ := (made.homeOf?_eq_index_iff components flawed known).mp home
  have counts' := Partition.mem_counting_iff.mpr
    ⟨touches, Pool.mem_keys_of_isFree free, .inl free⟩
  exact Partition.mem_unknowns_of_free made.islands known
    (Partition.mem_members_of_link made.islands (link_mem flawed) counts counts' known inside) free

/-- An island without a flaw is touched by none. -/
theorem untouched (made : Plan.Made sketch start plan blocks) (known : island ∈ plan.islands)
    (sound : plan.faultsOf island.index = []) (listed : flaw ∈ sketch.flaws) {v : Variable}
    (counts : v ∈ Partition.counting plan.pool (touched sketch plan.pool flaw)) :
    v ∉ island.members := by
  intro inside
  have home := (made.homeOf?_eq_some_iff listed).mpr ⟨island, known, rfl, v, counts, inside⟩
  rw [made.faultsOf_eq, List.filter_eq_nil_iff] at sound
  exact sound flaw listed (by simpa using home)

/-- An orphan touches nothing free. -/
theorem bound_of_orphan (made : Plan.Made sketch start plan blocks) (orphan : flaw ∈ plan.orphans)
    {v : Variable} (touches : v ∈ touched sketch plan.pool flaw) :
    plan.pool.isFree v = false := by
  rw [made.orphans_eq, List.mem_filter] at orphan
  obtain ⟨flawed, homeless⟩ := orphan
  by_contra free
  rw [Bool.not_eq_false] at free
  obtain ⟨island, known, inside⟩ := Partition.exists_island_of_free made.islands free
  have counts := Partition.mem_counting_iff.mpr
    ⟨touches, Pool.mem_keys_of_isFree free, .inl free⟩
  have home := (made.homeOf?_eq_some_iff flawed).mpr ⟨island, known, rfl, v, counts, inside⟩
  simp [home] at homeless

end Made

end Plan

end PlaneSketch
