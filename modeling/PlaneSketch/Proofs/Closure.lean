import PlaneSketch.Closure
import PlaneSketch.Proofs.Pool

/-!
What the closure of some features holds.

`Reaches` follows references from one feature to the next. A reference may name nothing: such a
handle can be reached, but no path leaves it.

* `mem_closure_iff`: the closure holds the registered variables of the live features that can be
  reached, whatever refers to what, circles included.
* `closure_subset`: with more features to start from, there is no less to be found.
-/

namespace PlaneSketch.Sketch

variable {α : Type}

/-- There is a path along references from one handle to another that meets none of those seen. -/
inductive Reaches (sketch : Sketch α) (seen : List Handle) : Handle → Handle → Prop
  | refl {h : Handle} : h ∉ seen → Reaches sketch seen h h
  | step {h r k : Handle} {feature : Feature α} : h ∉ seen → sketch.feature? h = some feature →
      r ∈ feature.references → Reaches sketch seen r k → Reaches sketch seen h k

section Paths

variable {sketch : Sketch α} {seen : List Handle} {h k w : Handle}

theorem Reaches.start (path : sketch.Reaches seen h k) : h ∉ seen := by
  cases path with
  | refl fresh => exact fresh
  | step fresh _ _ _ => exact fresh

theorem Reaches.finish (path : sketch.Reaches seen h k) : k ∉ seen := by
  induction path with
  | refl fresh => exact fresh
  | step _ _ _ _ ih => exact ih

/-- Only live features lead on, so that a path to one starts at one. -/
theorem Reaches.isLive (path : sketch.Reaches seen h k) (live : sketch.isLive k = true) :
    sketch.isLive h = true := by
  cases path with
  | refl _ => exact live
  | step _ found _ _ => simp [Sketch.isLive, Arena.isLive, ← feature?.eq_1, found]

/-- A path that avoids more handles avoids fewer. -/
theorem Reaches.of_cons (path : sketch.Reaches (w :: seen) h k) : sketch.Reaches seen h k := by
  induction path with
  | refl fresh => exact .refl fun old => fresh (List.mem_cons_of_mem w old)
  | step fresh found listed _ ih =>
    exact .step (fun old => fresh (List.mem_cons_of_mem w old)) found listed ih

/-- A path that avoids the first of some handles starts at a later one. -/
theorem Reaches.mem_of_mem_cons {rest : List Handle} (path : sketch.Reaches (w :: seen) h k)
    (listed : h ∈ w :: rest) : h ∈ rest := by
  refine (List.mem_cons.mp listed).resolve_left ?_
  rintro rfl
  exact path.start List.mem_cons_self

/-- **A path either ends at a handle, avoids it, or can be taken up behind it**: there it is left
for the last time. -/
theorem Reaches.cases_through (path : sketch.Reaches seen h k) (w : Handle) :
    k = w ∨ sketch.Reaches (w :: seen) h k ∨
      ∃ feature, sketch.feature? w = some feature ∧
        ∃ r ∈ feature.references, sketch.Reaches (w :: seen) r k := by
  induction path with
  | @refl h fresh =>
    by_cases same : h = w
    · exact .inl same
    · exact .inr (.inl (.refl (by simp [same, fresh])))
  | @step h r k feature fresh found listed _ ih =>
    rcases ih with done | avoiding | behind
    · exact .inl done
    · by_cases same : h = w
      · subst same
        exact .inr (.inr ⟨feature, found, r, listed, avoiding⟩)
      · exact .inr (.inl (.step (by simp [same, fresh]) found listed avoiding))
    · exact .inr (.inr behind)

end Paths

/-! ### The closure -/

section Closure

variable {sketch : Sketch α} {pool : Pool α} {v : Variable}

theorem mem_variablesOf_iff {h : Handle} :
    v ∈ variablesOf pool h ↔ v.handle = h ∧ v ∈ pool.keys := by
  obtain ⟨k, component⟩ := v
  simp only [variablesOf, List.mem_filter, Pool.contains_iff, List.mem_cons, Variable.mk.injEq,
    List.not_mem_nil, or_false]
  cases component <;> simp [eq_comm]

/-- What the search finds: the variables of the live features to which a path leads from a waiting
handle without meeting one visited before. -/
theorem mem_closureFrom_iff (visited waiting : List Handle) :
    v ∈ closureFrom sketch pool visited waiting ↔
      v ∈ pool.keys ∧ sketch.isLive v.handle = true ∧
        ∃ h ∈ waiting, sketch.Reaches visited h v.handle := by
  fun_induction closureFrom sketch pool visited waiting with
  | case1 => simp
  | case2 visited h rest old ih =>
    have blocked : ∀ k, ¬sketch.Reaches visited h k := fun k path =>
      path.start (by simpa using old)
    simp [ih, blocked]
  | case3 visited h rest fresh dead ih =>
    have gone : sketch.isLive h = false := by simp [isLive, Arena.isLive, ← feature?.eq_1, dead]
    rw [ih]
    refine and_congr_right fun _ => and_congr_right fun live => ?_
    have other : v.handle ≠ h := by
      rintro same
      rw [same, gone] at live
      cases live
    -- no path to a live feature goes through a dead handle
    constructor
    · rintro ⟨w, listed, path⟩
      exact ⟨w, List.mem_cons_of_mem h listed, path.of_cons⟩
    · rintro ⟨w, listed, path⟩
      rcases path.cases_through h with same | avoiding | ⟨feature, found, -⟩
      · exact absurd same other
      · exact ⟨w, avoiding.mem_of_mem_cons listed, avoiding⟩
      · rw [dead] at found
        cases found
  | case4 visited h rest fresh feature found ih =>
    have live : sketch.isLive h = true := by
      simp [isLive, Arena.isLive, ← feature?.eq_1, found]
    rw [List.mem_append, mem_variablesOf_iff, ih]
    constructor
    · rintro (⟨rfl, registered⟩ | ⟨registered, alive, w, listed, path⟩)
      · exact ⟨registered, live, v.handle, List.mem_cons_self, .refl (by simpa using fresh)⟩
      · refine ⟨registered, alive, ?_⟩
        rcases List.mem_append.mp listed with before | reference
        · exact ⟨w, List.mem_cons_of_mem h before, path.of_cons⟩
        · exact ⟨h, List.mem_cons_self, .step (by simpa using fresh) found reference path.of_cons⟩
    · rintro ⟨registered, alive, w, listed, path⟩
      rcases path.cases_through h with same | avoiding | ⟨feature', found', r, reference, behind⟩
      · exact .inl ⟨same, registered⟩
      · exact .inr ⟨registered, alive, w,
          List.mem_append_left _ (avoiding.mem_of_mem_cons listed), avoiding⟩
      · obtain rfl : feature' = feature := by simpa [found] using found'.symm
        exact .inr ⟨registered, alive, r, List.mem_append_right _ reference, behind⟩

/-- **The closure is what can be reached.** It holds the registered variables of the live features
to which a path along references leads. -/
theorem mem_closure_iff {handles : List Handle} :
    v ∈ sketch.closure pool handles ↔
      v ∈ pool.keys ∧ sketch.isLive v.handle = true ∧
        ∃ h ∈ handles, sketch.Reaches [] h v.handle :=
  mem_closureFrom_iff [] handles

theorem closure_subset {handles others : List Handle} (subset : handles ⊆ others) :
    sketch.closure pool handles ⊆ sketch.closure pool others := by
  intro v touched
  obtain ⟨registered, live, h, listed, path⟩ := mem_closure_iff.mp touched
  exact mem_closure_iff.mpr ⟨registered, live, h, subset listed, path⟩

end Closure

end PlaneSketch.Sketch
