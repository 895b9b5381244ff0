import Mathlib
import PlaneSketch.Proofs.Blocks
import PlaneSketch.Proofs.DisjointSets
import PlaneSketch.Scalar.Real

/-!
Islands are connected components.

Two variables step to each other when a block or a link holds both, or when they are the two
coordinates of one point. `Represents` says that the disjoint sets built from a drawing stand for
chains of such steps, and since no step leads from a free variable to a bound one, the chains are
of one kind (`chain_cases`).

* `Components` is all that the islands of a drawing promise: who is in which island, when two
  variables share one, and in which order everything stands.
* `components_of_partition`: blocks that can be placed are grouped into such islands.
-/

namespace PlaneSketch.Partition

variable {α : Type}

/-! ### Steps -/

/-- Two free variables that belong together. -/
inductive FreeStep (pool : Pool α) (blocks : List (Block α)) (links : List (List Variable)) :
    Variable → Variable → Prop
  | point {h : Handle} : pool.isFree ⟨h, .x⟩ = true → pool.isFree ⟨h, .y⟩ = true →
      FreeStep pool blocks links ⟨h, .x⟩ ⟨h, .y⟩
  | block {block : Block α} {u v : Variable} : block ∈ blocks → u ∈ block.unknowns →
      v ∈ block.unknowns → pool.isFree u = true → pool.isFree v = true →
      FreeStep pool blocks links u v
  | link {link : List Variable} {u v : Variable} : link ∈ links → u ∈ link → v ∈ link →
      pool.isFree u = true → pool.isFree v = true → FreeStep pool blocks links u v

/-- Two bound variables that belong together: something that holds no free variable holds both. -/
inductive BoundStep (pool : Pool α) (blocks : List (Block α)) (links : List (List Variable)) :
    Variable → Variable → Prop
  | block {block : Block α} {u v : Variable} : block ∈ blocks →
      (∀ w ∈ block.unknowns, pool.isFree w = false) → u ∈ block.unknowns → v ∈ block.unknowns →
      BoundStep pool blocks links u v
  | link {link : List Variable} {u v : Variable} : link ∈ links →
      (∀ w ∈ link, pool.isFree w = false) → u ∈ link → v ∈ link → u ∈ pool.keys →
      v ∈ pool.keys → BoundStep pool blocks links u v

section Steps

variable {pool : Pool α} {blocks : List (Block α)} {links : List (List Variable)}
  {u v : Variable}

theorem FreeStep.free (step : FreeStep pool blocks links u v) :
    pool.isFree u = true ∧ pool.isFree v = true := by
  cases step with
  | point freeX freeY => exact ⟨freeX, freeY⟩
  | block _ _ _ freeU freeV => exact ⟨freeU, freeV⟩
  | link _ _ _ freeU freeV => exact ⟨freeU, freeV⟩

theorem BoundStep.bound (step : BoundStep pool blocks links u v) :
    pool.isFree u = false ∧ pool.isFree v = false := by
  cases step with
  | block _ bound memberU memberV => exact ⟨bound u memberU, bound v memberV⟩
  | link _ bound memberU memberV => exact ⟨bound u memberU, bound v memberV⟩

/-- **A chain of steps does not mix free and bound variables.** -/
theorem chain_cases
    (chain : Relation.EqvGen
      (fun u v => FreeStep pool blocks links u v ∨ BoundStep pool blocks links u v) u v) :
    (pool.isFree u = pool.isFree v) ∧
      (pool.isFree u = true → Relation.EqvGen (FreeStep pool blocks links) u v) ∧
      (pool.isFree u = false → Relation.EqvGen (BoundStep pool blocks links) u v) := by
  induction chain with
  | rel u v step =>
    rcases step with step | step
    · obtain ⟨freeU, freeV⟩ := step.free
      exact ⟨freeU.trans freeV.symm, fun _ => .rel _ _ step, fun bound => by simp [freeU] at bound⟩
    · obtain ⟨boundU, boundV⟩ := step.bound
      exact ⟨boundU.trans boundV.symm, fun free => by simp [boundU] at free, fun _ => .rel _ _ step⟩
  | refl u => exact ⟨rfl, fun _ => .refl u, fun _ => .refl u⟩
  | symm u v _ ih =>
    obtain ⟨same, free, bound⟩ := ih
    exact ⟨same.symm, fun h => (free (same.trans h)).symm, fun h => (bound (same.trans h)).symm⟩
  | trans u v w _ _ ih ih' =>
    obtain ⟨same, free, bound⟩ := ih
    obtain ⟨same', free', bound'⟩ := ih'
    refine ⟨same.trans same', fun h => ?_, fun h => ?_⟩
    · exact (free h).trans _ _ _ (free' (same.symm.trans h))
    · exact (bound h).trans _ _ _ (bound' (same.symm.trans h))

theorem relevant_of_bound {group : List Variable} (bound : ∀ w ∈ group, pool.isFree w = false) :
    relevant pool group = group := by
  have none : group.filter pool.isFree = [] := by
    rw [List.filter_eq_nil_iff]
    intro w member
    simp [bound w member]
  simp [relevant, none]

theorem mem_relevant_iff {group : List Variable} :
    v ∈ relevant pool group ↔
      v ∈ group ∧ (pool.isFree v = true ∨ ∀ w ∈ group, pool.isFree w = false) := by
  by_cases bound : ∀ w ∈ group, pool.isFree w = false
  · rw [relevant_of_bound bound]
    exact ⟨fun member => ⟨member, .inr bound⟩, And.left⟩
  · have some : group.filter pool.isFree ≠ [] := by
      intro none
      apply bound
      intro w member
      simpa using List.filter_eq_nil_iff.mp none w member
    simp [relevant, some, bound, List.mem_filter]

theorem relevant_eq_nil_iff {group : List Variable} : relevant pool group = [] ↔ group = [] := by
  simp only [relevant]
  split
  · rfl
  · rename_i some
    refine iff_of_false (by simpa using some) ?_
    rintro rfl
    exact some rfl

end Steps

/-! ### The sets of a drawing -/

section Sets

variable {pool : Pool α} {blocks : List (Block α)} {links : List (List Variable)}
  {u v : Variable}

/-- The two coordinates of one point, both free. -/
def Coordinates (pool : Pool α) (u v : Variable) : Prop :=
  u.component = .x ∧ v = ⟨u.handle, .y⟩ ∧ pool.isFree u = true ∧ pool.isFree v = true

/-- The groups of variables that blocks and links put together. -/
def groups (pool : Pool α) (blocks : List (Block α)) (links : List (List Variable)) :
    List (List Variable) :=
  blocks.map (fun block => relevant pool block.unknowns) ++
    links.map (fun link => relevant pool (link.filter pool.contains))

theorem sets_eq : sets pool blocks links =
    (groups pool blocks links).foldl DisjointSets.unionAll (joinPoints pool) := by
  rw [sets, joinLinks, joinBlocks, groups, List.foldl_append, List.foldl_map, List.foldl_map]

/-- One free variable taken in, together with the other coordinate of its point. -/
theorem joinPoint_spec {sets : DisjointSets Variable} {R : Variable → Variable → Prop}
    (represents : sets.Represents R) {w : Variable} (free : pool.isFree w = true) :
    let added := sets.add w
    let joined := if w.component = .x && pool.isFree ⟨w.handle, .y⟩ then
      added.union w ⟨w.handle, .y⟩ else added
    joined.Represents (fun u v => R u v ∨ u = w ∧ Coordinates pool u v) ∧
      ∀ v, joined.contains v = true ↔ sets.contains v = true ∨ v = w ∨ Coordinates pool w v := by
  have added := represents.add w
  by_cases both : (decide (w.component = .x) && pool.isFree ⟨w.handle, .y⟩) = true
  · simp only [both, if_true]
    obtain ⟨isX, freeY⟩ : w.component = .x ∧ pool.isFree ⟨w.handle, .y⟩ = true := by
      simpa using both
    have partner : ∀ v, Coordinates pool w v ↔ v = ⟨w.handle, .y⟩ := fun v =>
      ⟨fun step => step.2.1, fun same => ⟨isX, same, free, same ▸ freeY⟩⟩
    constructor
    · refine (added.union w ⟨w.handle, .y⟩).congr (fun u v step => .rel _ _ ?_)
        fun u v step => .rel _ _ ?_
      · rcases step with old | ⟨rfl, same⟩
        · exact .inl old
        · exact .inr ⟨rfl, (partner v).mpr same⟩
      · rcases step with old | ⟨rfl, step⟩
        · exact .inl old
        · exact .inr ⟨rfl, (partner v).mp step⟩
    · intro v
      rw [(added.forest.union w ⟨w.handle, .y⟩).2.1, partner]
      simp only [DisjointSets.contains_add, Bool.or_eq_true, decide_eq_true_eq]
      constructor
      · rintro (((old | same) | same) | same)
        · exact .inl old
        · exact .inr (.inl same.symm)
        · exact .inr (.inl same.symm)
        · exact .inr (.inr same.symm)
      · rintro (old | same | same)
        · exact .inl (.inl (.inl old))
        · exact .inl (.inr same.symm)
        · exact .inr same.symm
  · simp only [both]
    have lone : ∀ v, ¬Coordinates pool w v := by
      rintro v ⟨isX, rfl, -, freeY⟩
      exact both (by simp [isX, freeY])
    constructor
    · refine added.congr (fun u v step => .rel _ _ (.inl step)) fun u v step => .rel _ _ ?_
      rcases step with old | ⟨rfl, step⟩
      · exact old
      · exact absurd step (lone v)
    · intro v
      have other : ¬Coordinates pool w v := lone v
      simp only [Bool.false_eq_true, if_false, DisjointSets.contains_add, Bool.or_eq_true,
        decide_eq_true_eq, other, or_false]
      exact or_congr_right eq_comm

/-- The free variables are in the sets, and the coordinates of one point are together. -/
theorem joinPoints_spec :
    (joinPoints pool).Represents (Coordinates pool) ∧
      ∀ v, (joinPoints pool).contains v = true ↔ pool.isFree v = true := by
  have fold : ∀ (keys : List Variable) (sets : DisjointSets Variable)
      (R : Variable → Variable → Prop), sets.Represents R → (∀ v ∈ keys, pool.isFree v = true) →
      let joined := keys.foldl (fun sets v =>
        let sets := sets.add v
        if v.component = .x && pool.isFree ⟨v.handle, .y⟩ then sets.union v ⟨v.handle, .y⟩
        else sets) sets
      joined.Represents (fun u v => R u v ∨ u ∈ keys ∧ Coordinates pool u v) ∧
        ∀ v, joined.contains v = true ↔
          sets.contains v = true ∨ v ∈ keys ∨ ∃ u ∈ keys, Coordinates pool u v := by
    intro keys
    induction keys with
    | nil => exact fun sets R represents _ => ⟨by simpa using represents, by simp⟩
    | cons w keys ih =>
      intro sets R represents free
      obtain ⟨one, contains⟩ := joinPoint_spec represents (free w List.mem_cons_self)
      obtain ⟨all, contains'⟩ := ih _ _ one fun v later => free v (List.mem_cons_of_mem _ later)
      refine ⟨all.congr (fun u v step => .rel _ _ ?_) fun u v step => .rel _ _ ?_, fun v => ?_⟩
      · rcases step with (old | ⟨rfl, step⟩) | ⟨later, step⟩
        · exact .inl old
        · exact .inr ⟨List.mem_cons_self, step⟩
        · exact .inr ⟨List.mem_cons_of_mem _ later, step⟩
      · rcases step with old | ⟨listed, step⟩
        · exact .inl (.inl old)
        · rcases List.mem_cons.mp listed with rfl | later
          · exact .inl (.inr ⟨rfl, step⟩)
          · exact .inr ⟨later, step⟩
      · rw [List.foldl_cons, contains', contains]
        simp only [List.mem_cons, exists_eq_or_imp]
        tauto
  obtain ⟨represents, contains⟩ := fold pool.freeKeys .empty _ .empty fun v listed =>
    Pool.mem_freeKeys_iff.mp listed
  refine ⟨represents.congr (fun u v step => .rel _ _ ?_) fun u v step => .rel _ _ ?_, fun v => ?_⟩
  · exact step.elim False.elim And.right
  · exact .inr ⟨Pool.mem_freeKeys_iff.mpr step.2.2.1, step⟩
  · rw [joinPoints, contains]
    simp only [DisjointSets.contains_empty, Pool.mem_freeKeys_iff]
    constructor
    · rintro (absent | free | ⟨u, -, -, -, -, free⟩)
      · cases absent
      · exact free
      · exact free
    · exact fun free => .inr (.inl free)

theorem mem_groups_iff {group : List Variable} :
    group ∈ groups pool blocks links ↔
      (∃ block ∈ blocks, group = relevant pool block.unknowns) ∨
        ∃ link ∈ links, group = relevant pool (link.filter pool.contains) := by
  simp [groups, eq_comm]

/-- Two members of a group that count are both free, or nothing in the group is. -/
theorem mem_relevant_both {group : List Variable} (memberU : u ∈ relevant pool group)
    (memberV : v ∈ relevant pool group) :
    u ∈ group ∧ v ∈ group ∧
      (pool.isFree u = true ∧ pool.isFree v = true ∨ ∀ w ∈ group, pool.isFree w = false) := by
  obtain ⟨inU, kindU⟩ := mem_relevant_iff.mp memberU
  obtain ⟨inV, kindV⟩ := mem_relevant_iff.mp memberV
  refine ⟨inU, inV, ?_⟩
  rcases kindU with freeU | bound
  · exact kindV.imp (fun freeV => ⟨freeU, freeV⟩) id
  · exact .inr bound

theorem bound_filter_iff {link : List Variable} :
    (∀ w ∈ link.filter pool.contains, pool.isFree w = false) ↔
      ∀ w ∈ link, pool.isFree w = false := by
  constructor
  · intro bound w member
    by_contra free
    have free : pool.isFree w = true := by simpa using free
    have registered := Pool.contains_iff.mpr (Pool.mem_keys_of_isFree free)
    rw [bound w (List.mem_filter.mpr ⟨member, registered⟩)] at free
    cases free
  · exact fun bound w member => bound w (List.mem_filter.mp member).1

theorem step_of_group {group : List Variable} (listed : group ∈ groups pool blocks links)
    (memberU : u ∈ group) (memberV : v ∈ group) :
    FreeStep pool blocks links u v ∨ BoundStep pool blocks links u v := by
  rcases mem_groups_iff.mp listed with ⟨block, given, rfl⟩ | ⟨link, given, rfl⟩
  · obtain ⟨inU, inV, ⟨freeU, freeV⟩ | bound⟩ := mem_relevant_both memberU memberV
    · exact .inl (.block given inU inV freeU freeV)
    · exact .inr (.block given bound inU inV)
  · obtain ⟨inU, inV, kinds⟩ := mem_relevant_both memberU memberV
    obtain ⟨inU, keyU⟩ := List.mem_filter.mp inU
    obtain ⟨inV, keyV⟩ := List.mem_filter.mp inV
    rcases kinds with ⟨freeU, freeV⟩ | bound
    · exact .inl (.link given inU inV freeU freeV)
    · exact .inr (.link given (bound_filter_iff.mp bound) inU inV (Pool.contains_iff.mp keyU)
        (Pool.contains_iff.mp keyV))

theorem group_of_freeStep (step : FreeStep pool blocks links u v) :
    Coordinates pool u v ∨ ∃ group ∈ groups pool blocks links, u ∈ group ∧ v ∈ group := by
  cases step with
  | point freeX freeY => exact .inl ⟨rfl, rfl, freeX, freeY⟩
  | block given inU inV freeU freeV =>
    exact .inr ⟨_, mem_groups_iff.mpr (.inl ⟨_, given, rfl⟩),
      mem_relevant_iff.mpr ⟨inU, .inl freeU⟩, mem_relevant_iff.mpr ⟨inV, .inl freeV⟩⟩
  | link given inU inV freeU freeV =>
    have keyU := Pool.contains_iff.mpr (Pool.mem_keys_of_isFree freeU)
    have keyV := Pool.contains_iff.mpr (Pool.mem_keys_of_isFree freeV)
    exact .inr ⟨_, mem_groups_iff.mpr (.inr ⟨_, given, rfl⟩),
      mem_relevant_iff.mpr ⟨List.mem_filter.mpr ⟨inU, keyU⟩, .inl freeU⟩,
      mem_relevant_iff.mpr ⟨List.mem_filter.mpr ⟨inV, keyV⟩, .inl freeV⟩⟩

theorem group_of_boundStep (step : BoundStep pool blocks links u v) :
    ∃ group ∈ groups pool blocks links, u ∈ group ∧ v ∈ group := by
  cases step with
  | block given bound inU inV =>
    exact ⟨_, mem_groups_iff.mpr (.inl ⟨_, given, rfl⟩),
      mem_relevant_iff.mpr ⟨inU, .inr bound⟩, mem_relevant_iff.mpr ⟨inV, .inr bound⟩⟩
  | @link link _ _ given bound inU inV keyU keyV =>
    have within : ∀ {w}, w ∈ link → w ∈ pool.keys → w ∈ relevant pool (link.filter pool.contains) :=
      fun inW keyW => mem_relevant_iff.mpr
        ⟨List.mem_filter.mpr ⟨inW, Pool.contains_iff.mpr keyW⟩, .inr (bound_filter_iff.mpr bound)⟩
    exact ⟨_, mem_groups_iff.mpr (.inr ⟨_, given, rfl⟩), within inU keyU, within inV keyV⟩

/-- **The sets of a drawing stand for the chains of steps.** -/
theorem sets_represents : (sets pool blocks links).Represents fun u v =>
    FreeStep pool blocks links u v ∨ BoundStep pool blocks links u v := by
  rw [sets_eq]
  refine (joinPoints_spec.1.foldl_unionAll (groups pool blocks links)).congr
    (fun u v step => .rel _ _ ?_) fun u v step => .rel _ _ ?_
  · rcases step with ⟨isX, rfl, freeU, freeV⟩ | ⟨group, listed, memberU, memberV⟩
    · obtain ⟨h, component⟩ := u
      obtain rfl : component = .x := isX
      exact .inl (.point freeU freeV)
    · exact step_of_group listed memberU memberV
  · rcases step with step | step
    · exact group_of_freeStep step
    · exact .inr (group_of_boundStep step)

theorem contains_sets (v : Variable) :
    (sets pool blocks links).contains v = true ↔
      pool.isFree v = true ∨ ∃ group ∈ groups pool blocks links, 2 ≤ group.length ∧ v ∈ group := by
  rw [sets_eq, DisjointSets.contains_foldl_unionAll joinPoints_spec.1, joinPoints_spec.2]

end Sets

/-! ### Who is in which island -/

section Islands

variable {pool : Pool α} {blocks : List (Block α)} {links : List (List Variable)}
  {u v root : Variable} {index : Nat}

theorem isFree_eq_of_root_eq
    (same : (sets pool blocks links).root u = (sets pool blocks links).root v) :
    pool.isFree u = pool.isFree v :=
  (chain_cases ((sets_represents.root_eq_iff u v).mp same)).1

theorem root_eq_iff_of_free (free : pool.isFree u = true) :
    (sets pool blocks links).root u = (sets pool blocks links).root v ↔
      Relation.EqvGen (FreeStep pool blocks links) u v := by
  rw [sets_represents.root_eq_iff]
  constructor
  · exact fun chain => (chain_cases chain).2.1 free
  · exact fun chain => Relation.EqvGen.mono (fun _ _ => .inl) _ _ chain

theorem root_eq_iff_of_bound (bound : pool.isFree u = false) :
    (sets pool blocks links).root u = (sets pool blocks links).root v ↔
      Relation.EqvGen (BoundStep pool blocks links) u v := by
  rw [sets_represents.root_eq_iff]
  constructor
  · exact fun chain => (chain_cases chain).2.2 bound
  · exact fun chain => Relation.EqvGen.mono (fun _ _ => .inr) _ _ chain

theorem mem_roots_iff {sets : DisjointSets Variable} :
    root ∈ roots pool sets ↔
      ∃ v ∈ pool.keys, sets.contains v = true ∧ sets.root v = root := by
  simp [roots, and_assoc]

/-- All variables with the same root, in the order of registration. -/
def rooted (pool : Pool α) (sets : DisjointSets Variable) (root : Variable) : List Variable :=
  (pool.keys.filter sets.contains).filter fun v => sets.root v = root

theorem mem_rooted_iff {sets : DisjointSets Variable} :
    v ∈ rooted pool sets root ↔
      v ∈ pool.keys ∧ sets.contains v = true ∧ sets.root v = root := by
  rw [rooted, List.mem_filter, List.mem_filter, decide_eq_true_eq, and_assoc]

theorem unknowns_islandAt {sets : DisjointSets Variable} :
    (islandAt pool blocks sets index root).unknowns = (rooted pool sets root).filter pool.isFree :=
  rfl

/-- An island holds all variables with the same root. -/
theorem members_islandAt :
    (islandAt pool blocks (sets pool blocks links) index root).members =
      rooted pool (sets pool blocks links) root := by
  have members : (islandAt pool blocks (sets pool blocks links) index root).members =
      (rooted pool (sets pool blocks links) root).filter pool.isFree ++
        if ((rooted pool (sets pool blocks links) root).filter pool.isFree).isEmpty then
          rooted pool (sets pool blocks links) root else [] := rfl
  rw [members]
  by_cases bound : (rooted pool (sets pool blocks links) root).filter pool.isFree = []
  · rw [bound]
    rfl
  · obtain ⟨w, memberW⟩ := List.exists_mem_of_ne_nil _ bound
    obtain ⟨memberW, freeW⟩ := List.mem_filter.mp memberW
    -- one free variable makes all of them free
    have all : (rooted pool (sets pool blocks links) root).filter pool.isFree =
        rooted pool (sets pool blocks links) root := by
      rw [List.filter_eq_self]
      intro v memberV
      have same := (mem_rooted_iff.mp memberV).2.2.trans (mem_rooted_iff.mp memberW).2.2.symm
      rw [isFree_eq_of_root_eq same, freeW]
    rw [if_neg (by simpa using bound), all, List.append_nil]

theorem mem_unknowns_islandAt :
    v ∈ (islandAt pool blocks (sets pool blocks links) index root).unknowns ↔
      pool.isFree v = true ∧ (sets pool blocks links).root v = root := by
  rw [unknowns_islandAt, List.mem_filter, mem_rooted_iff]
  constructor
  · rintro ⟨⟨-, -, same⟩, free⟩
    exact ⟨free, same⟩
  · rintro ⟨free, same⟩
    exact ⟨⟨Pool.mem_keys_of_isFree free, (contains_sets v).mpr (.inl free), same⟩, free⟩

theorem pinned_or_unknowns_eq_nil {sets : DisjointSets Variable} :
    (islandAt pool blocks sets index root).pinned = [] ∨
      (islandAt pool blocks sets index root).unknowns = [] := by
  simp only [islandAt]
  split
  · rename_i none
    exact .inr (List.isEmpty_iff.mp none)
  · exact .inl rfl

theorem mem_pinned_islandAt :
    v ∈ (islandAt pool blocks (sets pool blocks links) index root).pinned ↔
      v ∈ pool.keys ∧ (sets pool blocks links).contains v = true ∧
        (sets pool blocks links).root v = root ∧ pool.isFree v = false := by
  have members : (islandAt pool blocks (sets pool blocks links) index root).members =
      rooted pool (sets pool blocks links) root := members_islandAt
  have member : v ∈ (islandAt pool blocks (sets pool blocks links) index root).unknowns ∨
      v ∈ (islandAt pool blocks (sets pool blocks links) index root).pinned ↔
        v ∈ pool.keys ∧ (sets pool blocks links).contains v = true ∧
          (sets pool blocks links).root v = root := by
    rw [← List.mem_append, ← mem_rooted_iff, ← members]
    rfl
  constructor
  · intro pinned
    obtain ⟨registered, contains, same⟩ := member.mp (.inr pinned)
    refine ⟨registered, contains, same, ?_⟩
    by_contra free
    have unknown : v ∈ (islandAt pool blocks (sets pool blocks links) index root).unknowns :=
      mem_unknowns_islandAt.mpr ⟨by simpa using free, same⟩
    have kinds : (islandAt pool blocks (sets pool blocks links) index root).pinned = [] ∨
        (islandAt pool blocks (sets pool blocks links) index root).unknowns = [] :=
      pinned_or_unknowns_eq_nil
    rcases kinds with none | none
    · rw [none] at pinned
      cases pinned
    · rw [none] at unknown
      cases unknown
  · rintro ⟨registered, contains, same, bound⟩
    rcases member.mpr ⟨registered, contains, same⟩ with unknown | pinned
    · rw [(mem_unknowns_islandAt.mp unknown).1] at bound
      cases bound
    · exact pinned

end Islands

/-! ### The islands of a partition -/

/-- What the islands of a drawing promise. -/
structure Components (pool : Pool α) (blocks : List (Block α)) (links : List (List Variable))
    (islands : List (Island α)) : Prop where
  /-- islands are numbered -/
  index_eq : ∀ (i : Nat) (h : i < islands.length), islands[i].index = i
  unknowns_free : ∀ island ∈ islands, ∀ v ∈ island.unknowns, pool.isFree v = true
  pinned_bound : ∀ island ∈ islands, ∀ v ∈ island.pinned, v ∈ pool.keys ∧ pool.isFree v = false
  /-- nothing is free beside what is pinned -/
  one_kind : ∀ island ∈ islands, island.pinned = [] ∨ island.unknowns = []
  /-- each free variable is in one island -/
  free_once : ∀ v, pool.isFree v = true → ∃! island, island ∈ islands ∧ v ∈ island.unknowns
  /-- each block is in one island -/
  block_once : ∀ block ∈ blocks, ∃! island, island ∈ islands ∧ block ∈ island.blocks
  /-- the island of a block holds its free variables -/
  block_free : ∀ island ∈ islands, ∀ block ∈ island.blocks, ∀ v ∈ block.unknowns,
    pool.isFree v = true → v ∈ island.unknowns
  /-- the island of a block without a free variable holds all its variables -/
  block_pinned : ∀ island ∈ islands, ∀ block ∈ island.blocks,
    (∀ v ∈ block.unknowns, pool.isFree v = false) → ∀ v ∈ block.unknowns, v ∈ island.pinned
  /-- free variables share an island exactly when a chain of steps joins them -/
  free_joined : ∀ u v, pool.isFree u = true → pool.isFree v = true →
    ((∃ island ∈ islands, u ∈ island.unknowns ∧ v ∈ island.unknowns) ↔
      Relation.EqvGen (FreeStep pool blocks links) u v)
  /-- no bound variable is in two islands -/
  pinned_once : ∀ v, ∀ island ∈ islands, ∀ other ∈ islands, v ∈ island.pinned →
    v ∈ other.pinned → island = other
  /-- a bound variable is in an island when a block without a free variable reads it -/
  pinned_of_block : ∀ block ∈ blocks, (∀ v ∈ block.unknowns, pool.isFree v = false) →
    ∀ v ∈ block.unknowns, ∃ island ∈ islands, v ∈ island.pinned
  /-- bound variables share an island only when a chain of steps joins them -/
  pinned_joined : ∀ island ∈ islands, ∀ u ∈ island.pinned, ∀ v ∈ island.pinned,
    Relation.EqvGen (BoundStep pool blocks links) u v
  unknowns_order : ∀ island ∈ islands, island.unknowns.Sublist pool.keys
  pinned_order : ∀ island ∈ islands, island.pinned.Sublist pool.keys
  blocks_order : ∀ island ∈ islands, island.blocks.Sublist blocks
  /-- the first variable of an island is registered before that of each later island -/
  islands_order : islands.Pairwise fun island later => ∃ u v,
    island.members.head? = some u ∧ later.members.head? = some v ∧ [u, v].Sublist pool.keys

/-- The block can be placed: its variables are registered, and at least two when none is free. -/
structure Placeable (pool : Pool α) (block : Block α) : Prop where
  registered : ∀ v ∈ block.unknowns, v ∈ pool.keys
  paired : (∀ v ∈ block.unknowns, pool.isFree v = false) → 2 ≤ block.unknowns.length

section Components

variable {pool : Pool α} {blocks : List (Block α)} {links : List (List Variable)}
  {islands : List (Island α)} {island : Island α} {root : Variable}

theorem nodup_roots {sets : DisjointSets Variable} : (roots pool sets).Nodup :=
  nodup_firstOccurrences _

/-- The number of the island that a variable stands for. -/
def indexOf (pool : Pool α) (sets : DisjointSets Variable) (root : Variable) : Nat :=
  (roots pool sets).idxOf root

/-- The island that a variable stands for, under its number. -/
def islandOn (pool : Pool α) (blocks : List (Block α)) (links : List (List Variable))
    (root : Variable) : Island α :=
  islandAt pool blocks (sets pool blocks links) (indexOf pool (sets pool blocks links) root) root

/-- The islands of all variables that stand for one. -/
def grouped (pool : Pool α) (blocks : List (Block α)) (links : List (List Variable)) :
    List (Island α) :=
  (roots pool (sets pool blocks links)).zipIdx.map fun (root, index) =>
    islandAt pool blocks (sets pool blocks links) index root

theorem mem_grouped_iff :
    island ∈ grouped pool blocks links ↔
      ∃ root ∈ roots pool (sets pool blocks links), island = islandOn pool blocks links root := by
  simp only [grouped, List.mem_map, Prod.exists, List.mem_zipIdx_iff_getElem?]
  constructor
  · rintro ⟨root, index, found, rfl⟩
    obtain ⟨inside, rfl⟩ := List.getElem?_eq_some_iff.mp found
    refine ⟨_, List.getElem_mem inside, ?_⟩
    rw [islandOn, indexOf, nodup_roots.idxOf_getElem index inside]
  · rintro ⟨root, listed, rfl⟩
    exact ⟨root, _, List.getElem?_idxOf listed, rfl⟩

theorem islandOn_mem (listed : root ∈ roots pool (sets pool blocks links)) :
    islandOn pool blocks links root ∈ grouped pool blocks links :=
  mem_grouped_iff.mpr ⟨root, listed, rfl⟩

/-- Every free variable is in an island. -/
theorem root_mem_of_free {v : Variable} (free : pool.isFree v = true) :
    (sets pool blocks links).root v ∈ roots pool (sets pool blocks links) :=
  mem_roots_iff.mpr ⟨v, Pool.mem_keys_of_isFree free, (contains_sets v).mpr (.inl free), rfl⟩

section Placeable

variable {block : Block α} {v : Variable}

theorem Placeable.contains (placeable : Placeable pool block) (listed : block ∈ blocks)
    (counts : v ∈ relevant pool block.unknowns) :
    (sets pool blocks links).contains v = true := by
  rw [contains_sets]
  rcases (mem_relevant_iff.mp counts).2 with free | bound
  · exact .inl free
  · refine .inr ⟨_, mem_groups_iff.mpr (.inl ⟨block, listed, rfl⟩), ?_, counts⟩
    rw [relevant_of_bound bound]
    exact placeable.paired bound

theorem Placeable.root_mem (placeable : Placeable pool block) (listed : block ∈ blocks)
    (counts : v ∈ relevant pool block.unknowns) :
    (sets pool blocks links).root v ∈ roots pool (sets pool blocks links) :=
  mem_roots_iff.mpr ⟨v, placeable.registered v (mem_relevant_iff.mp counts).1,
    placeable.contains listed counts, rfl⟩

theorem Placeable.anchor (placeable : Placeable pool block) :
    ∃ v, anchor? pool block = some v ∧ v ∈ relevant pool block.unknowns := by
  have nonempty : relevant pool block.unknowns ≠ [] := by
    intro none
    have empty := relevant_eq_nil_iff.mp none
    have paired := placeable.paired (by simp [empty])
    simp [empty] at paired
  exact ⟨_, List.head?_eq_some_head nonempty, List.head_mem nonempty⟩

/-- The roots of all variables that count in a block are the same. -/
theorem root_eq_of_relevant (listed : block ∈ blocks) {u : Variable}
    (countsU : u ∈ relevant pool block.unknowns) (countsV : v ∈ relevant pool block.unknowns) :
    (sets pool blocks links).root u = (sets pool blocks links).root v :=
  (sets_represents.root_eq_iff u v).mpr
    (.rel _ _ (step_of_group (mem_groups_iff.mpr (.inl ⟨block, listed, rfl⟩)) countsU countsV))

theorem mem_blocks_islandAt {sets : DisjointSets Variable} {index : Nat} :
    block ∈ (islandAt pool blocks sets index root).blocks ↔
      block ∈ blocks ∧ (anchor? pool block).map sets.root = some root := by
  simp [islandAt]

/-- A block is in the island of each variable that counts in it. -/
theorem root_of_mem_blocks {index : Nat}
    (member : block ∈ (islandAt pool blocks (sets pool blocks links) index root).blocks)
    (counts : v ∈ relevant pool block.unknowns) : (sets pool blocks links).root v = root := by
  obtain ⟨listed, found⟩ := mem_blocks_islandAt.mp member
  obtain ⟨anchor, isAnchor, rooted⟩ := Option.map_eq_some_iff.mp found
  rw [← rooted]
  exact root_eq_of_relevant listed counts (List.mem_of_head? isAnchor)

end Placeable

/-- Blocks that can be placed are grouped, and none is left over. -/
theorem partition_of_placeable [Scalar α] (placeable : ∀ block ∈ blocks, Placeable pool block) :
    partition pool blocks links = .ok (grouped pool blocks links) := by
  unfold partition
  dsimp only
  rw [if_pos]
  · rfl
  · rw [List.all_eq_true]
    intro block listed
    obtain ⟨v, anchor, counts⟩ := (placeable block listed).anchor
    rw [anchor]
    simpa using (placeable block listed).root_mem listed counts

theorem eq_of_partition [Scalar α] (done : partition pool blocks links = .ok islands) :
    islands = grouped pool blocks links := by
  unfold partition at done
  dsimp only at done
  split at done
  · cases done
    rfl
  · cases done

/-- No variable is listed twice. -/
theorem nodup_unknowns [Scalar α] (done : partition pool blocks links = .ok islands)
    (member : island ∈ islands) : island.unknowns.Nodup := by
  rw [eq_of_partition done] at member
  obtain ⟨root, -, rfl⟩ := mem_grouped_iff.mp member
  exact ((pool.nodup_keys.filter _).filter _).filter _

/-- The order of the roots is that of the first variables of their islands. -/
theorem pairwise_grouped :
    (grouped pool blocks links).Pairwise fun island later => ∃ u v,
      island.members.head? = some u ∧ later.members.head? = some v ∧
        [u, v].Sublist pool.keys := by
  have heads := pairwise_head_firstOccurrences (sets pool blocks links).root
    (pool.keys.filter (sets pool blocks links).contains)
  rw [grouped, List.pairwise_map]
  have roots_eq : firstOccurrences ((pool.keys.filter (sets pool blocks links).contains).map
      (sets pool blocks links).root) =
        (roots pool (sets pool blocks links)).zipIdx.map Prod.fst := by
    rw [List.zipIdx_map_fst]
    rfl
  rw [roots_eq, List.pairwise_map] at heads
  refine heads.imp fun {first second} before => ?_
  obtain ⟨u, v, headU, headV, order⟩ := before
  refine ⟨u, v, ?_, ?_, order.trans List.filter_sublist⟩
  · rw [members_islandAt]
    exact headU
  · rw [members_islandAt]
    exact headV

/-- A free variable is in the island of its root alone. -/
theorem free_once_grouped {v : Variable} (free : pool.isFree v = true) :
    ∃! island, island ∈ grouped pool blocks links ∧ v ∈ island.unknowns := by
  refine ⟨islandOn pool blocks links ((sets pool blocks links).root v),
    ⟨islandOn_mem (root_mem_of_free free), mem_unknowns_islandAt.mpr ⟨free, rfl⟩⟩, ?_⟩
  rintro island ⟨member, unknown⟩
  obtain ⟨root, -, rfl⟩ := mem_grouped_iff.mp member
  rw [(mem_unknowns_islandAt.mp unknown).2]

/-- A block that can be placed is in the island of its anchor alone. -/
theorem block_once_grouped {block : Block α} (placeable : Placeable pool block)
    (listed : block ∈ blocks) :
    ∃! island, island ∈ grouped pool blocks links ∧ block ∈ island.blocks := by
  obtain ⟨v, anchor, counts⟩ := placeable.anchor
  refine ⟨islandOn pool blocks links ((sets pool blocks links).root v),
    ⟨islandOn_mem (placeable.root_mem listed counts),
      mem_blocks_islandAt.mpr ⟨listed, by rw [anchor]; rfl⟩⟩, ?_⟩
  rintro island ⟨member, within⟩
  obtain ⟨root, -, rfl⟩ := mem_grouped_iff.mp member
  rw [root_of_mem_blocks within counts]

/-- Free variables share an island exactly when a chain of steps joins them. -/
theorem free_joined_grouped {u v : Variable} (freeU : pool.isFree u = true)
    (freeV : pool.isFree v = true) :
    (∃ island ∈ grouped pool blocks links, u ∈ island.unknowns ∧ v ∈ island.unknowns) ↔
      Relation.EqvGen (FreeStep pool blocks links) u v := by
  rw [← root_eq_iff_of_free freeU]
  constructor
  · rintro ⟨island, member, unknownU, unknownV⟩
    obtain ⟨root, -, rfl⟩ := mem_grouped_iff.mp member
    rw [(mem_unknowns_islandAt.mp unknownU).2, (mem_unknowns_islandAt.mp unknownV).2]
  · intro same
    exact ⟨_, islandOn_mem (root_mem_of_free freeV), mem_unknowns_islandAt.mpr ⟨freeU, same⟩,
      mem_unknowns_islandAt.mpr ⟨freeV, rfl⟩⟩

/-- What only bound variables are read by is pinned in the island of its root. -/
theorem pinned_of_placeable {block : Block α} (placeable : Placeable pool block)
    (listed : block ∈ blocks) (bound : ∀ w ∈ block.unknowns, pool.isFree w = false) {v : Variable}
    (read : v ∈ block.unknowns) :
    v ∈ (islandOn pool blocks links ((sets pool blocks links).root v)).pinned ∧
      islandOn pool blocks links ((sets pool blocks links).root v) ∈
        grouped pool blocks links := by
  have counts := mem_relevant_iff.mpr ⟨read, .inr bound⟩
  refine ⟨mem_pinned_islandAt.mpr ?_, islandOn_mem (placeable.root_mem listed counts)⟩
  exact ⟨placeable.registered v read, placeable.contains listed counts, rfl, bound v read⟩

/-- **Blocks that can be placed are grouped into connected components.** -/
theorem components_of_partition [Scalar α] (placeable : ∀ block ∈ blocks, Placeable pool block)
    (done : partition pool blocks links = .ok islands) :
    Components pool blocks links islands := by
  obtain rfl := eq_of_partition done
  have at_root : ∀ {island : Island α}, island ∈ grouped pool blocks links →
      ∃ root, island = islandOn pool blocks links root := by
    intro island member
    obtain ⟨root, -, same⟩ := mem_grouped_iff.mp member
    exact ⟨root, same⟩
  constructor
  case index_eq =>
    intro i h
    simp [grouped, islandAt]
  case unknowns_free =>
    intro island member v unknown
    obtain ⟨root, rfl⟩ := at_root member
    exact (mem_unknowns_islandAt.mp unknown).1
  case pinned_bound =>
    intro island member v pinned
    obtain ⟨root, rfl⟩ := at_root member
    obtain ⟨registered, -, -, bound⟩ := mem_pinned_islandAt.mp pinned
    exact ⟨registered, bound⟩
  case one_kind =>
    intro island member
    obtain ⟨root, rfl⟩ := at_root member
    exact pinned_or_unknowns_eq_nil
  case free_once =>
    intro v free
    exact free_once_grouped free
  case block_once =>
    intro block listed
    exact block_once_grouped (placeable block listed) listed
  case block_free =>
    intro island member block within v read free
    obtain ⟨root, rfl⟩ := at_root member
    exact mem_unknowns_islandAt.mpr
      ⟨free, root_of_mem_blocks within (mem_relevant_iff.mpr ⟨read, .inl free⟩)⟩
  case block_pinned =>
    intro island member block within bound v read
    obtain ⟨root, rfl⟩ := at_root member
    have listed := (mem_blocks_islandAt.mp within).1
    obtain rfl := root_of_mem_blocks within (mem_relevant_iff.mpr ⟨read, .inr bound⟩)
    exact (pinned_of_placeable (placeable block listed) listed bound read).1
  case free_joined =>
    intro u v freeU freeV
    exact free_joined_grouped freeU freeV
  case pinned_once =>
    intro v island member other member' pinned pinned'
    obtain ⟨root, rfl⟩ := at_root member
    obtain ⟨root', rfl⟩ := at_root member'
    rw [← (mem_pinned_islandAt.mp pinned).2.2.1, ← (mem_pinned_islandAt.mp pinned').2.2.1]
  case pinned_of_block =>
    intro block listed bound v read
    obtain ⟨pinned, member⟩ := pinned_of_placeable (placeable block listed) listed bound read
    exact ⟨_, member, pinned⟩
  case pinned_joined =>
    intro island member u pinnedU v pinnedV
    obtain ⟨root, rfl⟩ := at_root member
    obtain ⟨-, -, rootU, boundU⟩ := mem_pinned_islandAt.mp pinnedU
    obtain ⟨-, -, rootV, -⟩ := mem_pinned_islandAt.mp pinnedV
    exact (root_eq_iff_of_bound boundU).mp (rootU.trans rootV.symm)
  case unknowns_order =>
    intro island member
    obtain ⟨root, rfl⟩ := at_root member
    exact (List.filter_sublist.trans List.filter_sublist).trans List.filter_sublist
  case pinned_order =>
    intro island member
    obtain ⟨root, rfl⟩ := at_root member
    simp only [islandOn, islandAt]
    split
    · exact List.filter_sublist.trans List.filter_sublist
    · exact List.nil_sublist _
  case blocks_order =>
    intro island member
    obtain ⟨root, rfl⟩ := at_root member
    exact List.filter_sublist
  case islands_order => exact pairwise_grouped

end Components

/-! ### The islands of a drawing -/

section Drawing

variable [Scalar α] {sketch : Sketch α} {start pool : Pool α} {blocks : List (Block α)}
  {block : Block α}

/-- Every block of a drawing can be placed, once everything flawed is left out. -/
theorem placeable_of_compiled (same : Pool.SameShape (Pool.ofSketch sketch) start)
    (compiled : Plan.compiled sketch start sketch.flaws = .ok (pool, blocks))
    (listed : block ∈ blocks) : Placeable pool block := by
  have stands := Sketch.stands_of_compiled compiled listed
  have keys : pool.keys = (Pool.ofSketch sketch).keys :=
    (Sketch.keys_compile compiled).trans same.keys
  have registered : ∀ v ∈ block.unknowns, v ∈ pool.keys := by
    intro v read
    rw [keys]
    exact Pool.mem_keys_ofSketch.mpr (stands.registered read)
  refine ⟨registered, fun bound => ?_⟩
  rcases stands.entangled with ⟨h, radius⟩ | ⟨u, readU, v, readV, ne⟩
  · have unbound := Sketch.binding?_radius (Pool.unbound_of_sameShape same) compiled h
    have free := Pool.isFree_iff.mpr ⟨registered _ radius, unbound⟩
    rw [bound _ radius] at free
    cases free
  · exact two_le_length_of_ne readU readV ne

/-- The islands that the blocks of a drawing are grouped into are components. -/
theorem components_of_compiled {links : List (List Variable)} {islands : List (Island α)}
    (same : Pool.SameShape (Pool.ofSketch sketch) start)
    (compiled : Plan.compiled sketch start sketch.flaws = .ok (pool, blocks))
    (done : partition pool blocks links = .ok islands) : Components pool blocks links islands :=
  components_of_partition (fun _ listed => placeable_of_compiled same compiled listed) done

/-- **Islands are exactly the connected components.** For every drawing, with everything flawed left
out and the pool seeded with any values, and for every list of links, the blocks are grouped into
islands, and these are the components of the free variables and of the bound variables of blocks and
links without a free variable. -/
theorem exists_components (sketch : Sketch α) (warm : List (Variable × α))
    (links : List (List Variable))
    (compiled : Plan.compiled sketch ((Pool.ofSketch sketch).seed warm).1 sketch.flaws =
      .ok (pool, blocks)) :
    ∃ islands, partition pool blocks links = .ok islands ∧
      Components pool blocks links islands := by
  have placeable : ∀ block ∈ blocks, Placeable pool block := fun block listed =>
    placeable_of_compiled (Pool.sameShape_seed _ warm) compiled listed
  have done : partition pool blocks links = .ok _ := partition_of_placeable placeable
  exact ⟨_, done, components_of_partition placeable done⟩

/-- Two points fixed in place with a line between them that has to be level, a third point that
makes a right angle with them, a fourth point by itself, and a constraint with a flaw. -/
noncomputable def propped : Sketch ℝ where
  features := ⟨[
    ⟨some (.point 0 0 false), 0⟩, ⟨some (.point 4 0 false), 0⟩, ⟨some (.point 4 3 false), 0⟩,
    ⟨some (.point 9 9 false), 0⟩, ⟨some (.line ⟨0, 0⟩ ⟨1, 0⟩ false), 0⟩,
    ⟨some (.line ⟨1, 0⟩ ⟨2, 0⟩ false), 0⟩]⟩
  constraints := ⟨[
    ⟨some (.fixed ⟨0, 0⟩ ⟨0, 0⟩), 0⟩, ⟨some (.fixed ⟨1, 0⟩ ⟨4, 0⟩), 0⟩,
    ⟨some (.alongAxis ⟨4, 0⟩ .leftRight), 0⟩,
    ⟨some (.plain .perpendicular [⟨4, 0⟩, ⟨5, 0⟩] none none), 0⟩,
    ⟨some (.plain .coincident [⟨3, 0⟩, ⟨3, 0⟩] none none), 0⟩]⟩
  groups := []

/-- The pool of the drawing with both points bound. -/
noncomputable def proppedPool : Pool ℝ :=
  ((Pool.ofSketch propped).pin ⟨0, 0⟩ ⟨0, 0⟩ ⟨0, 0⟩).pin ⟨1, 0⟩ ⟨4, 0⟩ ⟨1, 0⟩

/-- The blocks of the drawing: one has no free variable. -/
noncomputable def proppedBlocks : List (Block ℝ) :=
  [⟨.constraint ⟨2, 0⟩ .alongAxis, .level ⟨⟨0, 0⟩, .y⟩ ⟨⟨1, 0⟩, .y⟩⟩,
    ⟨.constraint ⟨3, 0⟩ .perpendicular, .perpendicular ⟨0, 0⟩ ⟨1, 0⟩ ⟨1, 0⟩ ⟨2, 0⟩⟩]

theorem exists_components_propped :
    Plan.compiled propped ((Pool.ofSketch propped).seed []).1 propped.flaws =
      .ok (proppedPool, proppedBlocks) ∧
    ∃ islands, partition proppedPool proppedBlocks [[⟨⟨3, 0⟩, .x⟩, ⟨⟨7, 0⟩, .x⟩]] = .ok islands ∧
      Components proppedPool proppedBlocks [[⟨⟨3, 0⟩, .x⟩, ⟨⟨7, 0⟩, .x⟩]] islands := by
  have compiled : Plan.compiled propped ((Pool.ofSketch propped).seed []).1 propped.flaws =
      .ok (proppedPool, proppedBlocks) := by
    cbv
  exact ⟨compiled, exists_components propped [] _ compiled⟩

end Drawing

end PlaneSketch.Partition
