import Mathlib
import PlaneSketch.Proofs.Appending

/-!
Which circles of features are found.

The live features and their references to live features are a graph. The search goes through it in
depth and leaves a feature when everything that the feature refers to was followed.

* `Search.Keeps`: what the search keeps at every step. A reference leads to a feature that was left
  before its own, or its feature is in a knot of which a circle is noted.
* `Search.Keeps.notes_of_transGen`: in a knot without a noted circle the order of leaving would go
  down forever around a circle.
* `finds_circles`: so the circles found are circles, no two with a common feature, and there is one
  in every knot.
-/

open Relation (ReflTransGen TransGen)

namespace PlaneSketch

/-! ### Circles and knots -/

namespace Sketch

variable {α : Type} {sketch : Sketch α} {h k r first : Handle} {others : List Handle}

/-- A live feature refers to a live one. -/
def Refers (sketch : Sketch α) (h r : Handle) : Prop :=
  (∃ feature, sketch.feature? h = some feature ∧ r ∈ feature.references) ∧ sketch.isLive r = true

/-- Two features are in one knot: references lead from each to the other. -/
def Knotted (sketch : Sketch α) (h k : Handle) : Prop :=
  ReflTransGen sketch.Refers h k ∧ ReflTransGen sketch.Refers k h

/-- A circle: different features of which each refers to the next one, and the last one to the
first. -/
structure Circle (sketch : Sketch α) (first : Handle) (others : List Handle) : Prop where
  distinct : (first :: others).Nodup
  closed : (first :: others ++ [first]).IsChain sketch.Refers

theorem Refers.isLive (refers : sketch.Refers h r) : sketch.isLive h = true := by
  obtain ⟨⟨feature, found, -⟩, -⟩ := refers
  exact isLive_iff.mpr ⟨feature, found⟩

theorem Knotted.symm (knotted : sketch.Knotted h k) : sketch.Knotted k h :=
  ⟨knotted.2, knotted.1⟩

theorem Knotted.trans (knotted : sketch.Knotted h k) (further : sketch.Knotted k r) :
    sketch.Knotted h r :=
  ⟨knotted.1.trans further.1, further.2.trans knotted.2⟩

/-- What is in a knot with a feature on a circle is on a circle, and refers to something there. -/
theorem Knotted.exists_refers (knotted : sketch.Knotted h k) (around : TransGen sketch.Refers h h) :
    ∃ r, sketch.Refers k r ∧ sketch.Knotted h r := by
  have around' : TransGen sketch.Refers k h := TransGen.trans_right knotted.2 around
  obtain ⟨r, refers, back⟩ := TransGen.head'_iff.mp around'
  exact ⟨r, refers, knotted.1.tail refers, back⟩

namespace Circle

variable (circle : sketch.Circle first others)

include circle

/-- A circle lies in one knot. -/
theorem knotted (listed : k ∈ first :: others) : sketch.Knotted first k := by
  constructor
  · refine circle.closed.induction (ReflTransGen sketch.Refers first) _ ?_ ?_ k
      (List.mem_append_left _ listed)
    · intro h r refers path
      exact path.tail refers
    · intro _
      exact .refl
  · refine circle.closed.backwards_concat_induction (fun h => ReflTransGen sketch.Refers h first) _
      ?_ .refl k listed
    intro h r refers path
    exact path.head refers

/-- Around a circle references lead back to where they start. -/
theorem around : TransGen sketch.Refers first first := by
  have chain := circle.closed
  obtain ⟨next, rest, same⟩ : ∃ next rest, others ++ [first] = next :: rest :=
    List.exists_cons_of_ne_nil (by simp)
  rw [List.cons_append, same, List.isChain_cons_cons] at chain
  refine .head' chain.1 ?_
  have listed : next ∈ others ++ [first] := by
    rw [same]
    exact List.mem_cons_self
  rcases List.mem_append.mp listed with inside | last
  · exact (circle.knotted (List.mem_cons_of_mem _ inside)).2
  · rw [List.mem_singleton.mp last]

end Circle

end Sketch

/-! ### What the search keeps -/

namespace Cycle.Search

variable {α : Type} {sketch : Sketch α} {s : Search} {step : Step} {outer : List Step}
  {left rest : List Handle} {noted noted' : Handle → Prop} {child : Option Handle} {h k : Handle}

/-- The feature is in a knot of which a circle is noted. -/
def Notes (sketch : Sketch α) (s : Search) (h : Handle) : Prop :=
  ∃ cycle ∈ s.cycles, ∃ k ∈ cycle, sketch.Knotted h k

/-- What holds of a feature on the path, when `child` is the one entered from it and `left` are
those that were left before. -/
structure Halfway (sketch : Sketch α) (left : List Handle) (noted : Handle → Prop)
    (child : Option Handle) (step : Step) : Prop where
  onward : ∀ c ∈ child, sketch.Refers step.owner c
  remaining : ∀ r ∈ step.remaining, sketch.isLive r = true → sketch.Refers step.owner r
  /-- what the feature refers to is still to be followed, is under way, was left, or the feature is
  in a noted knot -/
  followed : ∀ r, sketch.Refers step.owner r →
    r ∈ step.remaining ∨ child = some r ∨ r ∈ left ∨ noted step.owner

/-- The same along the path, from its end back to its start. -/
def Way (sketch : Sketch α) (left : List Handle) (noted : Handle → Prop) :
    Option Handle → List Step → Prop
  | _, [] => True
  | child, step :: outer =>
    Halfway sketch left noted child step ∧ Way sketch left noted (some step.owner) outer

/-- The features that were left, the last one first: each refers to those left before, or is in a
noted knot. -/
inductive Settled (sketch : Sketch α) (noted : Handle → Prop) : List Handle → Prop
  | nil : Settled sketch noted []
  | cons {h : Handle} {left : List Handle} :
      (∀ r, sketch.Refers h r → r ∈ left ∨ noted h) → Settled sketch noted left →
        Settled sketch noted (h :: left)

/-- What the search keeps. -/
structure Keeps (sketch : Sketch α) (s : Search) (left : List Handle) (child : Option Handle) :
    Prop where
  way : Way sketch left (s.Notes sketch) child s.path
  distinct : s.trail.Nodup
  entered : ∀ h, h ∈ s.entered ↔ h ∈ s.trail ∨ h ∈ left
  once : s.entered.Nodup
  live : ∀ h ∈ s.entered, sketch.isLive h = true
  settled : Settled sketch (s.Notes sketch) left
  circles : ∀ cycle ∈ s.cycles, ∃ first others, cycle = first :: others ∧
    sketch.Circle first others
  apart : s.cycles.Pairwise List.Disjoint

/-! #### The path -/

theorem Way.mono {left' : List Handle} (more : left ⊆ left') (imp : ∀ h, noted h → noted' h)
    {path : List Step} (way : Way sketch left noted child path) :
    Way sketch left' noted' child path := by
  induction path generalizing child with
  | nil => trivial
  | cons step outer ih =>
    obtain ⟨halfway, way⟩ := way
    refine ⟨⟨halfway.onward, halfway.remaining, fun r refers => ?_⟩, ih way⟩
    exact (halfway.followed r refers).imp_right
      (Or.imp_right (Or.imp (fun old => more old) (imp step.owner)))

/-- Leaving a feature: the one that it was entered from has followed it. -/
theorem Way.back (way : Way sketch left noted (some k) outer) :
    Way sketch (k :: left) noted none outer := by
  cases outer with
  | nil => trivial
  | cons step outer =>
    obtain ⟨halfway, way⟩ := way
    refine ⟨⟨by simp, halfway.remaining, fun r refers => ?_⟩,
      way.mono (List.subset_cons_self k left) fun _ => id⟩
    rcases halfway.followed r refers with open' | same | old | known
    · exact .inl open'
    · cases same
      exact .inr (.inr (.inl List.mem_cons_self))
    · exact .inr (.inr (.inl (List.mem_cons_of_mem k old)))
    · exact .inr (.inr (.inr known))

/-- Going on to the next reference. -/
theorem Way.next (way : Way sketch left noted none (step :: outer))
    (next : step.remaining = h :: rest) (onward : ∀ c ∈ child, sketch.Refers step.owner c)
    (followed : sketch.Refers step.owner h → child = some h ∨ h ∈ left ∨ noted step.owner) :
    Way sketch left noted child (⟨step.owner, rest⟩ :: outer) := by
  obtain ⟨halfway, way⟩ := way
  refine ⟨⟨onward, fun r listed => ?_, fun r refers => ?_⟩, way⟩
  · exact halfway.remaining r (next ▸ List.mem_cons_of_mem h listed)
  · rcases halfway.followed r refers with open' | under | old | known
    · rw [next] at open'
      rcases List.mem_cons.mp open' with rfl | later
      · exact .inr (followed refers)
      · exact .inl later
    · cases under
    · exact .inr (.inr (.inl old))
    · exact .inr (.inr (.inr known))

/-- Along the path each feature refers to the one entered from it. -/
theorem Way.isChain {path : List Step} (way : Way sketch left noted child path) :
    ((path.map (·.owner)).reverse ++ child.toList).IsChain sketch.Refers := by
  induction path generalizing child with
  | nil => cases child <;> simp
  | cons step outer ih =>
    obtain ⟨halfway, way⟩ := way
    have chain := ih way
    rw [Option.toList_some, ← List.reverse_cons] at chain
    rw [List.map_cons]
    refine List.isChain_append.mpr ⟨chain, by cases child <;> simp, fun x last y next => ?_⟩
    rw [List.getLast?_reverse, List.head?_cons] at last
    cases last
    exact halfway.onward y (by cases child <;> simp_all)

/-! #### Noting circles -/

theorem trail_of_path (path : s.path = step :: outer) :
    s.trail = (outer.map (·.owner)).reverse ++ [step.owner] := by
  rw [trail, path, List.map_cons, List.reverse_cons]

/-- What a search notes does not depend on the path. -/
theorem report_along (s : Search) (path : List Step) (cycle : List Handle) :
    Search.report ⟨path, s.entered, s.cycles⟩ cycle =
      ⟨path, s.entered, (s.report cycle).cycles⟩ := by
  unfold Search.report
  split <;> rfl

theorem report_eq (s : Search) (cycle : List Handle) :
    s.report cycle = ⟨s.path, s.entered, (s.report cycle).cycles⟩ :=
  report_along s s.path cycle

theorem Notes.report {cycle : List Handle} (notes : s.Notes sketch h) :
    (s.report cycle).Notes sketch h := by
  obtain ⟨known, listed, member⟩ := notes
  refine ⟨known, ?_, member⟩
  rcases cycles_report s cycle with same | added
  · rwa [same]
  · rw [added]
    exact List.mem_append_left _ listed

/-- **A circle that is found is noted, or meets one that is noted**: then both are in one knot. -/
theorem notes_report {first : Handle} {others : List Handle} (circle : sketch.Circle first others)
    (listed : h ∈ first :: others) : (s.report (first :: others)).Notes sketch h := by
  have knotted : ∀ k ∈ first :: others, sketch.Knotted h k := fun k member =>
    (circle.knotted listed).symm.trans (circle.knotted member)
  unfold report
  split
  · rename_i meets
    obtain ⟨known, noted, k, common, member⟩ := by
      simpa only [List.any_eq_true, List.contains_iff_mem] using meets
    exact ⟨known, noted, k, common, knotted k member⟩
  · exact ⟨first :: others, List.mem_append_right _ List.mem_cons_self, h, listed,
      knotted h listed⟩

theorem Settled.imp (settled : Settled sketch noted left) (imp : ∀ h, noted h → noted' h) :
    Settled sketch noted' left := by
  induction settled with
  | nil => exact .nil
  | cons followed _ ih => exact .cons (fun r refers => (followed r refers).imp_right (imp _)) ih

/-! #### Step by step -/

theorem Keeps.start (sketch : Sketch α) : Keeps sketch ⟨[], [], []⟩ [] child where
  way := trivial
  distinct := List.nodup_nil
  entered := by simp [trail]
  once := List.nodup_nil
  live := by simp
  settled := .nil
  circles := by simp
  apart := .nil

/-- A feature that has nothing left to follow is left. -/
theorem Keeps.back (keeps : Keeps sketch s left none) (path : s.path = step :: outer)
    (last : step.remaining = []) :
    Keeps sketch { s with path := outer } (step.owner :: left) none := by
  have way := keeps.way
  rw [path] at way
  have distinct := keeps.distinct
  rw [trail_of_path path] at distinct
  refine ⟨way.2.back, distinct.of_append_left, fun h => ?_, keeps.once, keeps.live, ?_,
    keeps.circles, keeps.apart⟩
  · rw [keeps.entered, trail_of_path path, List.mem_append, List.mem_singleton, List.mem_cons,
      or_assoc]
    rfl
  · refine .cons (fun r refers => ?_) keeps.settled
    rcases way.1.followed r refers with open' | under | settled
    · rw [last] at open'
      cases open'
    · cases under
    · exact settled

/-- A reference is taken up. -/
theorem Keeps.next (keeps : Keeps sketch s left none) (path : s.path = step :: outer)
    (next : step.remaining = h :: rest) (onward : ∀ c ∈ child, sketch.Refers step.owner c)
    (followed : sketch.Refers step.owner h →
      child = some h ∨ h ∈ left ∨ s.Notes sketch step.owner) :
    Keeps sketch { s with path := ⟨step.owner, rest⟩ :: outer } left child := by
  have way := keeps.way
  rw [path] at way
  have trail : trail { s with path := ⟨step.owner, rest⟩ :: outer } = s.trail := by
    simp only [trail, path, List.map_cons]
  refine ⟨way.next next onward followed, ?_, fun k => ?_, keeps.once, keeps.live, keeps.settled,
    keeps.circles, keeps.apart⟩
  · rw [trail]
    exact keeps.distinct
  · rw [trail]
    exact keeps.entered k

/-- A live reference that was not entered before is entered. -/
theorem Keeps.enter (keeps : Keeps sketch s left (some h)) (fresh : h ∉ s.entered)
    (live : sketch.isLive h = true) :
    Keeps sketch (enter sketch s h) left none := by
  have apart : h ∉ s.trail ∧ h ∉ left := by
    rw [keeps.entered, not_or] at fresh
    exact fresh
  have trail : (Search.enter sketch s h).trail = s.trail ++ [h] := List.reverse_cons
  refine ⟨⟨⟨by simp, fun r listed live => ?_, fun r refers => ?_⟩, keeps.way⟩, ?_, fun k => ?_,
    keeps.once.cons fresh, ?_, keeps.settled, keeps.circles, keeps.apart⟩
  · cases found : sketch.feature? h with
    | none => simp [found] at listed
    | some feature => exact ⟨⟨feature, found, by simpa [found] using listed⟩, live⟩
  · obtain ⟨⟨feature, found, listed⟩, -⟩ := refers
    exact .inl (by simpa [found] using listed)
  · rw [trail]
    exact keeps.distinct.append (List.nodup_singleton h) (by simpa using apart.1)
  · rw [trail, List.mem_append, List.mem_singleton]
    refine List.mem_cons.trans ?_
    rw [keeps.entered]
    tauto
  · intro k listed
    rcases List.mem_cons.mp listed with rfl | before
    · exact live
    · exact keeps.live k before

/-- A feature on the path that the last one refers to closes a circle. -/
theorem Keeps.circle (keeps : Keeps sketch s left (some h)) (onPath : h ∈ s.trail) :
    ∃ others, s.cycleFrom h = h :: others ∧ sketch.Circle h others ∧
      s.trail.getLast? = (h :: others).getLast? := by
  obtain ⟨before, others, trail, fresh⟩ := List.eq_append_cons_of_mem onPath
  have distinct := keeps.distinct
  have chain := keeps.way.isChain
  rw [← Search.trail, trail] at chain
  rw [trail] at distinct
  refine ⟨others, ?_, ⟨distinct.of_append_right, ?_⟩, ?_⟩
  · rw [cycleFrom, trail, List.dropWhile_append_of_pos, List.dropWhile_cons_of_neg]
    · simp
    · intro k earlier
      simpa using fun same : k = h => fresh (same ▸ earlier)
  · rw [List.append_assoc] at chain
    exact chain.right_of_append
  · rw [trail, List.getLast?_append_of_ne_nil before (by simp)]

/-- Noting a circle keeps all that is kept. -/
theorem Keeps.report {first : Handle} {others : List Handle} (keeps : Keeps sketch s left child)
    (circle : sketch.Circle first others) :
    Keeps sketch (s.report (first :: others)) left child := by
  have more : ∀ k, s.Notes sketch k → (s.report (first :: others)).Notes sketch k :=
    fun k notes => notes.report
  have path := path_report s (first :: others)
  have entered : (s.report (first :: others)).entered = s.entered := by rw [report_eq]
  have trail : (s.report (first :: others)).trail = s.trail := by
    rw [Search.trail, path, Search.trail]
  refine ⟨?_, ?_, fun h => ?_, ?_, ?_, keeps.settled.imp more, ?_, ?_⟩
  · rw [path]
    exact keeps.way.mono (List.Subset.refl left) more
  · rw [trail]
    exact keeps.distinct
  · rw [trail, entered]
    exact keeps.entered h
  · rw [entered]
    exact keeps.once
  · rw [entered]
    exact keeps.live
  · intro cycle listed
    rcases cycles_report s (first :: others) with same | added
    · rw [same] at listed
      exact keeps.circles cycle listed
    · rw [added] at listed
      rcases List.mem_append.mp listed with old | new
      · exact keeps.circles cycle old
      · exact ⟨first, others, List.mem_singleton.mp new, circle⟩
  · unfold Search.report
    split
    · exact keeps.apart
    · rename_i meets
      refine List.pairwise_append.mpr ⟨keeps.apart, List.pairwise_singleton _ _, ?_⟩
      intro known listed cycle new k common member
      rw [List.mem_singleton.mp new] at member
      apply meets
      simp only [List.any_eq_true, List.contains_iff_mem]
      exact ⟨known, listed, k, common, member⟩

/-- A reference back into the path is followed once its circle is noted. -/
theorem Keeps.turn (keeps : Keeps sketch s left none) (path : s.path = step :: outer)
    (next : step.remaining = h :: rest) (live : sketch.isLive h = true) (onPath : h ∈ s.trail) :
    Keeps sketch (Search.report ⟨⟨step.owner, rest⟩ :: outer, s.entered, s.cycles⟩ (s.cycleFrom h))
      left none := by
  have way := keeps.way
  rw [path] at way
  have refers := way.1.remaining h (next ▸ List.mem_cons_self) live
  have trail : Search.trail ⟨⟨step.owner, rest⟩ :: outer, s.entered, s.cycles⟩ = s.trail := by
    simp only [Search.trail, path, List.map_cons]
  have taken : Keeps sketch ⟨⟨step.owner, rest⟩ :: outer, s.entered, s.cycles⟩ left (some h) :=
    keeps.next path next (by simpa using refers) fun _ => .inl rfl
  obtain ⟨others, cycle, circle, last⟩ := taken.circle (trail ▸ onPath)
  rw [cycleFrom, trail, ← cycleFrom] at cycle
  rw [trail, trail_of_path path, List.getLast?_concat] at last
  have noted : (s.report (h :: others)).Notes sketch step.owner :=
    notes_report circle (List.mem_of_getLast? last.symm)
  rw [cycle, report_along]
  have done := keeps.report circle
  rw [report_eq] at done noted
  exact done.next path next (by simp) fun _ => .inr (.inr noted)

/-- What a search ends with. -/
structure Ends (sketch : Sketch α) (s later : Search) : Prop where
  path : later.path = []
  entered : s.entered ⊆ later.entered
  keeps : ∃ left, Keeps sketch later left none

theorem Ends.after {s' later : Search} (ends : Ends sketch s' later)
    (more : s.entered ⊆ s'.entered) : Ends sketch s later :=
  ⟨ends.path, fun _ listed => ends.entered (more listed), ends.keeps⟩

/-- **The search keeps it all** until nothing is left to follow. -/
theorem ends_run (s : Search) (keeps : ∃ left, Keeps sketch s left none) :
    Ends sketch s (run sketch s) := by
  fun_induction run sketch s with
  | case1 s done => exact ⟨done, List.Subset.refl _, keeps⟩
  | case2 s step outer path last ih =>
    obtain ⟨left, keeps⟩ := keeps
    exact (ih ⟨_, keeps.back path last⟩).after (List.Subset.refl _)
  | case3 s step outer path h rest next s' dead ih =>
    obtain ⟨left, keeps⟩ := keeps
    have passed : Keeps sketch s' left none := keeps.next path next (by simp) fun refers => by
      rw [refers.2] at dead
      cases dead
    exact (ih ⟨left, passed⟩).after (List.Subset.refl _)
  | case4 s step outer path h rest next s' alive onPath ih =>
    obtain ⟨left, keeps⟩ := keeps
    have turned : Keeps sketch (s'.report (s.cycleFrom h)) left none :=
      keeps.turn path next (by simpa using alive) (by simpa [Search.onPath] using onPath)
    refine (ih ⟨left, turned⟩).after ?_
    rw [report_eq]
    exact List.Subset.refl _
  | case5 s step outer path h rest next s' alive offPath fresh ih =>
    obtain ⟨left, keeps⟩ := keeps
    have way := keeps.way
    rw [path] at way
    have refers := way.1.remaining h (next ▸ List.mem_cons_self) (by simpa using alive)
    have taken : Keeps sketch s' left (some h) :=
      keeps.next path next (by simpa using refers) fun _ => .inl rfl
    have entered : Keeps sketch (enter sketch s' h) left none :=
      taken.enter (by simpa using fresh) (by simpa using alive)
    exact (ih ⟨left, entered⟩).after (List.subset_cons_self h s.entered)
  | case6 s step outer path h rest next s' alive offPath seen ih =>
    obtain ⟨left, keeps⟩ := keeps
    -- what was entered and is not on the path was left
    have old : h ∈ left := by
      have known : h ∈ s.trail ∨ h ∈ left := (keeps.entered h).mp (by simpa using seen)
      exact known.resolve_left (by simpa [Search.onPath] using offPath)
    have passed : Keeps sketch s' left none :=
      keeps.next path next (by simp) fun _ => .inr (.inl old)
    exact (ih ⟨left, passed⟩).after (List.Subset.refl _)

/-- The same from one more feature, which is then entered. -/
theorem ends_visit (path : s.path = []) (keeps : ∃ left, Keeps sketch s left none)
    (live : sketch.isLive h = true) :
    Ends sketch s (visit sketch s h) ∧ h ∈ (visit sketch s h).entered := by
  unfold visit
  split
  · rename_i known
    exact ⟨⟨path, List.Subset.refl _, keeps⟩, by simpa using known⟩
  · rename_i fresh
    obtain ⟨left, keeps⟩ := keeps
    have way : Way sketch left (s.Notes sketch) (some h) s.path := by
      rw [path]
      trivial
    have entered := Keeps.enter { keeps with way } (by simpa using fresh) live
    have ends := ends_run _ ⟨left, entered⟩
    exact ⟨ends.after (List.subset_cons_self h s.entered), ends.entered List.mem_cons_self⟩

/-- The same from one feature after the other. -/
theorem ends_visits (handles : List Handle) (live : ∀ h ∈ handles, sketch.isLive h = true)
    (s : Search) (path : s.path = []) (keeps : ∃ left, Keeps sketch s left none) :
    Ends sketch s (handles.foldl (visit sketch) s) ∧
      ∀ h ∈ handles, h ∈ (handles.foldl (visit sketch) s).entered := by
  induction handles generalizing s with
  | nil => exact ⟨⟨path, List.Subset.refl _, keeps⟩, by simp⟩
  | cons h handles ih =>
    have first := ends_visit path keeps (live h List.mem_cons_self)
    obtain ⟨ends, within⟩ := ih (fun k listed => live k (List.mem_cons_of_mem h listed)) _
      first.1.path first.1.keeps
    refine ⟨ends.after first.1.entered, ?_⟩
    intro k listed
    rcases List.mem_cons.mp listed with rfl | later
    · exact ends.entered first.2
    · exact within k later

/-! #### At the end -/

/-- **In a knot there is a circle that is noted.** Otherwise each of its features on a circle would
refer to one that was left before, and that one to another one. -/
theorem notes_of_transGen (settled : Settled sketch (s.Notes sketch) left)
    (all : ∀ k, sketch.isLive k = true → k ∈ left)
    (around : TransGen sketch.Refers h h) : s.Notes sketch h := by
  by_contra unnoted
  have none : ∀ k ∈ left, ¬sketch.Knotted h k := by
    clear all
    induction settled with
    | nil => simp
    | @cons w left followed _ ih =>
      intro k listed knotted
      rcases List.mem_cons.mp listed with rfl | earlier
      · obtain ⟨r, refers, inside⟩ := knotted.exists_refers around
        rcases followed r refers with old | ⟨cycle, known, m, member, further⟩
        · exact ih r old inside
        · exact unnoted ⟨cycle, known, m, member, knotted.trans further⟩
      · exact ih k earlier knotted
  obtain ⟨r, refers, -⟩ := TransGen.head'_iff.mp around
  exact none h (all h refers.isLive) ⟨.refl, .refl⟩

/-- The search of a whole drawing. -/
def searched (sketch : Sketch α) : Search :=
  sketch.features.handles.foldl (visit sketch) ⟨[], [], []⟩

/-- Where the search of a whole drawing ends. -/
theorem exists_keeps (sketch : Sketch α) : (searched sketch).path = [] ∧
    ∃ left, Keeps sketch (searched sketch) left none ∧ ∀ h, sketch.isLive h = true → h ∈ left := by
  obtain ⟨⟨path, -, left, keeps⟩, within⟩ :=
    ends_visits sketch.features.handles (fun h => Arena.mem_handles_iff.mp) ⟨[], [], []⟩ rfl
      ⟨[], .start sketch⟩
  refine ⟨path, left, keeps, ?_⟩
  intro h live
  have entered := within h (Arena.mem_handles_iff.mpr live)
  rw [keeps.entered, trail, path] at entered
  simpa using entered

/-- Every live feature is entered once. -/
theorem perm_entered (keeps : Keeps sketch s left none)
    (all : ∀ h, sketch.isLive h = true → h ∈ left) :
    s.entered.Perm sketch.features.handles := by
  refine (List.perm_ext_iff_of_nodup keeps.once sketch.features.nodup_handles).mpr ?_
  intro h
  rw [Arena.mem_handles_iff]
  constructor
  · exact keeps.live h
  · intro live
    rw [keeps.entered]
    exact .inr (all h live)

end Cycle.Search

/-! ### What is found -/

namespace Sketch

variable {α : Type} {sketch : Sketch α} {h k : Handle}

/-- The flaws are the circles of a drawing, one in every knot. -/
structure FindsCircles (sketch : Sketch α) (flaws : List (Flaw α)) : Prop where
  /-- the search ends: nothing is left to follow, and every live feature was entered once -/
  ended : (Cycle.Search.searched sketch).path = [] ∧
    (Cycle.Search.searched sketch).entered.Perm sketch.features.handles
  /-- each flaw names a circle, from its owner on -/
  circles : ∀ flaw ∈ flaws, ∃ first others, flaw.feature? = some first ∧
    flaw.references = first :: others ∧ sketch.Circle first others
  /-- no two have a feature in common -/
  apart : flaws.Pairwise fun flaw flaw' => flaw.references.Disjoint flaw'.references
  /-- in the knot of each circle there is one that is found -/
  complete : ∀ first others, sketch.Circle first others →
    ∃ flaw ∈ flaws, ∀ k ∈ flaw.references, sketch.Knotted first k
  found_iff : flaws ≠ [] ↔ ∃ first others, sketch.Circle first others
  /-- what leads to a circle is broken -/
  broken : ∀ first others, sketch.Circle first others → ∀ k ∈ first :: others, ∀ h,
    ReflTransGen sketch.Refers h k → h ∈ sketch.brokenFeatures flaws

/-- What leads to something broken is broken. -/
theorem mem_brokenFeatures_of_path {flaws : List (Flaw α)} (path : ReflTransGen sketch.Refers h k)
    (broken : k ∈ sketch.brokenFeatures flaws) : h ∈ sketch.brokenFeatures flaws := by
  induction path using ReflTransGen.head_induction_on with
  | refl => exact broken
  | head refers _ ih =>
    obtain ⟨⟨feature, found, listed⟩, -⟩ := refers
    by_contra sound
    exact (sound_references found sound _ listed).1 ih

/-- **What is found is a circle**, told from its owner on. -/
theorem circle_of_mem_cycleFlaws {flaw : Flaw α} (listed : flaw ∈ sketch.cycleFlaws) :
    ∃ first others, flaw.feature? = some first ∧ flaw.references = first :: others ∧
      sketch.Circle first others := by
  obtain ⟨-, left, keeps, -⟩ := Cycle.Search.exists_keeps sketch
  obtain ⟨cycle, noted, same⟩ := List.mem_filterMap.mp listed
  obtain ⟨first, others, rfl, circle⟩ := keeps.circles cycle noted
  obtain rfl := Option.some.inj same
  exact ⟨first, others, rfl, rfl, circle⟩

/-- **In the knot of a circle one is found**, be it another one. -/
theorem exists_flaw_of_circle {first : Handle} {others : List Handle}
    (circle : sketch.Circle first others) :
    ∃ flaw ∈ sketch.cycleFlaws, ∀ k ∈ flaw.references, sketch.Knotted first k := by
  obtain ⟨-, left, keeps, all⟩ := Cycle.Search.exists_keeps sketch
  obtain ⟨cycle, noted, k, listed, knotted⟩ :=
    Cycle.Search.notes_of_transGen keeps.settled all circle.around
  obtain ⟨start, rest, rfl, circle'⟩ := keeps.circles cycle noted
  refine ⟨.cycle start rest, List.mem_filterMap.mpr ⟨_, noted, rfl⟩, ?_⟩
  intro m member
  exact (knotted.trans (circle'.knotted listed).symm).trans (circle'.knotted member)

/-- **Circles are found soundly and completely**: what is found are circles without a common
feature, and one lies in the knot of every circle that there is. -/
theorem finds_circles (sketch : Sketch α) : sketch.FindsCircles sketch.cycleFlaws := by
  obtain ⟨path, left, keeps, all⟩ := Cycle.Search.exists_keeps sketch
  refine ⟨⟨path, Cycle.Search.perm_entered keeps all⟩, fun flaw => circle_of_mem_cycleFlaws, ?_,
    fun first others => exists_flaw_of_circle, ?_, ?_⟩
  · refine List.Pairwise.filterMap _ ?_ keeps.apart
    intro cycle cycle' disjoint flaw named flaw' named'
    cases cycle <;> cases cycle' <;> cases named <;> cases named'
    exact disjoint
  · constructor
    · intro some
      obtain ⟨flaw, listed⟩ := List.exists_mem_of_ne_nil _ some
      obtain ⟨first, others, -, -, circle⟩ := circle_of_mem_cycleFlaws listed
      exact ⟨first, others, circle⟩
    · rintro ⟨first, others, circle⟩
      obtain ⟨flaw, listed, -⟩ := exists_flaw_of_circle circle
      exact List.ne_nil_of_mem listed
  · intro first others circle k onCircle h path'
    obtain ⟨flaw, listed, knot⟩ := exists_flaw_of_circle circle
    obtain ⟨start, rest, owner, references, -⟩ := circle_of_mem_cycleFlaws listed
    have knotted : sketch.Knotted first start := knot start (by simp [references])
    exact mem_brokenFeatures_of_path
      ((path'.trans (circle.knotted onCircle).2).trans knotted.1)
      (mem_brokenFeatures_of_flaw listed owner)

/-- Three lines in one knot with two circles: the second one meets the first and is passed over. -/
def pretzel : Sketch Nat where
  features := ⟨[⟨some (line [⟨1, 0⟩]), 0⟩, ⟨some (line [⟨2, 0⟩, ⟨0, 0⟩]), 0⟩,
    ⟨some (line [⟨0, 0⟩]), 0⟩, ⟨some (line [⟨2, 0⟩]), 0⟩]⟩
  constraints := ⟨[]⟩
  groups := []
where
  line (references : List Handle) : Feature Nat := ⟨.line, references, 0, 0, 0, false, none⟩

example : pretzel.cycleFlaws.map Flaw.references = [[⟨0, 0⟩, ⟨1, 0⟩, ⟨2, 0⟩]] := by cbv

end Sketch

end PlaneSketch
