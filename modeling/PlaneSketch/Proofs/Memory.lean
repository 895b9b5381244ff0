import Mathlib
import PlaneSketch.Proofs.Values

/-!
What a session remembers of a solve.

The positions of an island are remembered and reported at the same time, so that the next solve
starts where this one says it ended.

* `Recalls.take`: taking in one more island keeps up what is remembered of those before.
* `recalls_of_solve`: after a solve, each free variable of an island that was solved is remembered
  as it is reported.
* `Session.distinct_solve`: nothing is remembered twice.
-/

namespace PlaneSketch

variable {α : Type} [Scalar α]

/-! ### Nothing is remembered twice -/

namespace Session

variable {session warm : Session α} {methods : Methods α} {plan : Plan α}

omit [Scalar α] in
theorem distinct_fresh : (fresh : Session α).Distinct := List.nodup_nil

theorem distinct_gather {options : Options α} (all : List (Plan.Solved α))
    (islands : List (Island α)) {gathered : Gathered α} (distinct : gathered.session.Distinct) :
    (gather methods options plan warm all islands gathered).1.session.Distinct := by
  fun_induction gather methods options plan warm all islands gathered with
  | case1 | case2 | case3 => exact distinct
  | case4 _ _ _ _ _ _ _ _ _ ih => exact ih (Assoc.nodup_putAll distinct _)
  | case5 _ _ _ _ _ ih => exact ih distinct

theorem session_addOrphans (orphans : List (Flaw α)) (gathered : Gathered α) :
    (addOrphans orphans gathered).session = gathered.session := by
  obtain ⟨reports, -, added⟩ := exists_addOrphans orphans gathered
  rw [added]

theorem distinct_carryOut (distinct : session.Distinct) (options : Options α) (plan : Plan α) :
    (session.carryOut methods options plan).1.Distinct := by
  unfold carryOut
  split
  · exact distinct
  · rename_i all _
    have kept : (gather methods options plan session all plan.islands
        ⟨plan.pool, session, [], []⟩).1.session.Distinct :=
      distinct_gather all plan.islands distinct
    split
    · rename_i gathering
      rwa [gathering] at kept
    · rename_i gathered gathering
      rw [gathering] at kept
      rw [addBound, session_addOrphans]
      exact kept

/-- **No solve remembers anything twice**, whether it returns or fails. -/
theorem distinct_solve {ν : Type} [Ordered ν] {numerals : Numerals ν α} {options : Options ν}
    {sketch : Sketch α} {drag : Option (Drag α)} (distinct : session.Distinct) :
    (session.solve numerals methods options sketch drag).1.Distinct := by
  have pruned := distinct_prune distinct (Pool.ofSketch sketch)
  unfold solve
  split
  · exact distinct
  · unfold solveWith
    dsimp only
    split
    · exact pruned
    · exact distinct_carryOut pruned _ _

end Session

/-! ### Island by island -/

section Gathering

variable {plan : Plan α} {methods : Methods α} {options : Options α} {warm : Session α}
  {all : List (Plan.Solved α)} {taken : List (Island α)} {gathered final : Session.Gathered α}
  {blocks : List (Block α)} {links : List (List Variable)}

/-- Each free variable of the islands taken in is remembered as it is reported. -/
structure Recalls (plan : Plan α) (taken : List (Island α)) (gathered : Session.Gathered α) :
    Prop where
  once : (gathered.updated.map (·.1)).Nodup
  recalled : ∀ island ∈ taken, plan.faultsOf island.index = [] → ∀ v ∈ island.unknowns,
    Assoc.find? v gathered.session.cache = Assoc.find? v gathered.updated

/-- **Taking in one more island** is remembered, and so are those taken in before. -/
theorem Recalls.take {s : Plan.Solved α} (recalls : Recalls plan taken gathered)
    (islands : partition plan.pool blocks links = .ok plan.islands)
    (within : ∀ island ∈ taken, island ∈ plan.islands) (known : s.island ∈ plan.islands)
    (fresh : s.island ∉ taken) (diagnosis : Diagnosis) :
    Recalls plan (taken ++ [s.island]) (gathered.take warm s diagnosis) where
  once := Assoc.nodup_putAll recalls.once _
  recalled := by
    have cached : ∀ v, Assoc.find? v (gathered.take warm s diagnosis).session.cache =
        if v ∈ s.island.unknowns then some ((gathered.take warm s diagnosis).pool.valuation v)
        else Assoc.find? v gathered.session.cache :=
      Assoc.find?_putAll_map gathered.session.cache s.island.unknowns _
    intro island member sound v unknown
    rw [cached, find?_take]
    rcases List.mem_append.mp member with before | now
    · -- an island taken in before has no variable of this one
      have apart : v ∉ s.island.members := by
        intro inside
        have same := Partition.island_unique islands (within island before)
          (List.mem_append_left _ unknown) known inside
        exact fresh (same ▸ before)
      rw [if_neg fun unknown' => apart (List.mem_append_left _ unknown'), if_neg apart]
      exact recalls.recalled island before sound v unknown
    · obtain rfl := List.mem_singleton.mp now
      have inside : v ∈ s.island.members := List.mem_append_left _ unknown
      rw [if_pos unknown, if_pos inside]

theorem Recalls.gather
    (components : Partition.Components plan.pool blocks links plan.islands)
    (islands : partition plan.pool blocks links = .ok plan.islands)
    (solved : plan.solvedAll methods options = .ok all)
    (done : Session.gather methods options plan warm all plan.islands
      ⟨plan.pool, warm, [], []⟩ = (final, none)) : Recalls plan plan.islands final := by
  have start : Recalls plan [] ⟨plan.pool, warm, [], []⟩ := by
    refine ⟨List.nodup_nil, ?_⟩
    intro island member
    cases member
  refine Session.gather_induction (Recalls plan) components solved ?_ ?_ start done
  · intro taken gathered island recalls _ faulty
    refine ⟨recalls.once, fun other member sound => ?_⟩
    rcases List.mem_append.mp member with before | now
    · exact recalls.recalled other before sound
    · obtain rfl := List.mem_singleton.mp now
      exact absurd sound faulty
  · intro taken gathered s diagnosis recalls within _ known fresh _ _
    exact recalls.take islands within known fresh diagnosis

end Gathering

/-! ### A whole solve -/

section Solving

variable {plan : Plan α} {blocks : List (Block α)} {links : List (List Variable)}
  {methods : Methods α} {session session' : Session α} {result : Result α}

/-- What is remembered is what the result says. -/
structure Session.Recalls (session : Session α) (plan : Plan α) (result : Result α) : Prop where
  once : (result.updated.map (·.1)).Nodup
  recalled : ∀ island ∈ plan.islands, plan.faultsOf island.index = [] → ∀ v ∈ island.unknowns,
    Assoc.find? v session.cache = result.value? v

theorem recalls_of_carryOut {options : Options α}
    (components : Partition.Components plan.pool blocks links plan.islands)
    (islands : partition plan.pool blocks links = .ok plan.islands)
    (done : session.carryOut methods options plan = (session', .ok result)) :
    session'.Recalls plan result := by
  obtain ⟨all, gathered, solved, gathering, ended⟩ := exists_of_carryOut done
  have kept : session' = gathered.session := by
    rw [Session.carryOut, solved] at done
    simp only [gathering] at done
    rw [← Session.session_addOrphans plan.orphans gathered]
    exact (Prod.mk.inj done).1.symm
  have recalls := Recalls.gather components islands solved gathering
  have tells := Tells.gather components solved gathering
  obtain ⟨reports, -, added⟩ := exists_addOrphans plan.orphans gathered
  have updated : result.updated = (Session.addBound plan.islands gathered).updated := by
    rw [ended, added]
    rfl
  refine ⟨?_, fun island known sound v unknown => ?_⟩
  · rw [updated]
    exact Assoc.nodup_putAll recalls.once _
  · have inner : v ∉ outside plan.islands gathered.pool := by
      rw [mem_outside_iff islands tells.shape]
      exact fun alone => alone.2 ⟨island, known, List.mem_append_left _ unknown⟩
    rw [kept, Result.value?, updated, find?_addBound_eq, if_neg inner]
    exact recalls.recalled island known sound v unknown

/-- **A solve that returns is remembered as it is reported.** -/
theorem recalls_of_solve {ν : Type} [Ordered ν] {numerals : Numerals ν α} {options : Options ν}
    {sketch : Sketch α} {drag : Option (Drag α)}
    (make : Plan.make sketch (session.seeded sketch) drag = .ok plan)
    (done : session.solve numerals methods options sketch drag = (session', .ok result)) :
    session'.Recalls plan result := by
  obtain ⟨plan', make', carried⟩ := Session.exists_of_solve done
  obtain rfl : plan' = plan := Except.ok.inj (make'.symm.trans make)
  obtain ⟨blocks, made⟩ := Plan.exists_made make
  have components := made.components (session.sameShape_seeded sketch)
  exact recalls_of_carryOut components made.islands carried

end Solving

end PlaneSketch
