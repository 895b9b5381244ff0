import Mathlib.Data.List.Forall2
import Mathlib.Data.List.Nodup
import PlaneSketch.Block

/-!
Lists of things that may fail, and lists with each member once.
-/

namespace PlaneSketch

/-! ### Members that go together -/

section Together

variable {σ τ υ : Type} {R : σ → τ → Prop} {items : List σ} {others : List τ}

theorem exists_left_of_forall₂ (both : List.Forall₂ R items others) {b : τ} (member : b ∈ others) :
    ∃ a ∈ items, R a b := by
  induction both with
  | nil => cases member
  | @cons a c items others first rest ih =>
    rcases List.mem_cons.mp member with rfl | later
    · exact ⟨a, List.mem_cons_self, first⟩
    · obtain ⟨a', listed, holds⟩ := ih later
      exact ⟨a', List.mem_cons_of_mem a listed, holds⟩

theorem exists_right_of_forall₂ (both : List.Forall₂ R items others) {a : σ} (member : a ∈ items) :
    ∃ b ∈ others, R a b :=
  exists_left_of_forall₂ both.flip member

/-- Lists whose members agree in pairs under two maps have the same images. -/
theorem map_eq_of_forall₂ {f : σ → υ} {g : τ → υ}
    (both : List.Forall₂ (fun a b => f a = g b) items others) : items.map f = others.map g := by
  rw [← List.forall₂_eq_eq_eq, List.forall₂_map_left_iff, List.forall₂_map_right_iff]
  exact both

/-- Lists whose members agree in pairs are searched to the same end. -/
theorem map_find?_of_forall₂ {p : σ → Bool} {q : τ → Bool} {f : σ → υ} {g : τ → υ}
    (both : List.Forall₂ R items others) (passes : ∀ a b, R a b → p a = q b)
    (same : ∀ a b, R a b → f a = g b) : (items.find? p).map f = (others.find? q).map g := by
  induction both with
  | nil => rfl
  | @cons a b items others first rest ih =>
    rw [List.find?_cons, List.find?_cons, passes a b first]
    cases q b with
    | true => exact congrArg some (same a b first)
    | false => exact ih

/-- What is kept of lists whose members agree in pairs agrees in pairs. -/
theorem filter_of_forall₂ {p : σ → Bool} {q : τ → Bool} (both : List.Forall₂ R items others)
    (passes : ∀ a b, R a b → p a = q b) : List.Forall₂ R (items.filter p) (others.filter q) := by
  induction both with
  | nil => exact .nil
  | @cons a b items others first rest ih =>
    rw [List.filter_cons, List.filter_cons, passes a b first]
    split
    · exact .cons first ih
    · exact ih

/-- Lists whose members agree in pairs have the same outcomes. -/
theorem mapM_of_forall₂ {ε : Type} {f : σ → Except ε υ} {g : τ → Except ε υ}
    (both : List.Forall₂ R items others) (same : ∀ a b, R a b → f a = g b) :
    items.mapM f = others.mapM g := by
  induction both with
  | nil => rfl
  | @cons a b items others first rest ih =>
    rw [List.mapM_cons, List.mapM_cons, same a b first, ih]

/-- Going through a list depends on its members alone. -/
theorem mapM_congr {ε : Type} {f g : σ → Except ε υ} (same : ∀ a ∈ items, f a = g a) :
    items.mapM f = items.mapM g := by
  induction items with
  | nil => rfl
  | cons a items ih =>
    rw [List.mapM_cons, List.mapM_cons, same a List.mem_cons_self,
      ih fun b later => same b (List.mem_cons_of_mem a later)]

end Together

/-! ### One step after the other -/

section Outcomes

variable {ε σ τ : Type} {f : σ → Except ε τ}

theorem bind_eq_ok_iff {x : Except ε σ} {b : τ} :
    (x >>= f) = .ok b ↔ ∃ a, x = .ok a ∧ f a = .ok b := by
  cases x with
  | error failure => simp [bind, Except.bind]
  | ok a => simp [bind, Except.bind]

theorem bind_eq_error_iff {x : Except ε σ} {e : ε} :
    (x >>= f) = .error e ↔ x = .error e ∨ ∃ a, x = .ok a ∧ f a = .error e := by
  cases x with
  | error failure => simp [bind, Except.bind]
  | ok a => simp [bind, Except.bind]

/-- Going through a list succeeds when each member does, with the outcomes in the same order. -/
theorem mapM_eq_ok_iff {items : List σ} {outcomes : List τ} :
    items.mapM f = .ok outcomes ↔ List.Forall₂ (fun a b => f a = .ok b) items outcomes := by
  induction items generalizing outcomes with
  | nil =>
    simp [pure, Except.pure, eq_comm]
  | cons a items ih =>
    simp only [List.mapM_cons, bind_eq_ok_iff, ih, List.forall₂_cons_left_iff]
    simp [pure, Except.pure, eq_comm]

theorem mem_of_mapM_eq_ok {items : List σ} {outcomes : List τ}
    (done : items.mapM f = .ok outcomes) {b : τ} (member : b ∈ outcomes) :
    ∃ a ∈ items, f a = .ok b :=
  exists_left_of_forall₂ (mapM_eq_ok_iff.mp done) member

theorem outcome_of_mapM_eq_ok {items : List σ} {outcomes : List τ}
    (done : items.mapM f = .ok outcomes) {a : σ} (member : a ∈ items) :
    ∃ b ∈ outcomes, f a = .ok b :=
  exists_right_of_forall₂ (mapM_eq_ok_iff.mp done) member

/-- Going through a list succeeds when no member fails. -/
theorem exists_mapM_eq_ok {items : List σ} (all : ∀ a ∈ items, ∃ b, f a = .ok b) :
    ∃ outcomes, items.mapM f = .ok outcomes := by
  induction items with
  | nil => exact ⟨[], rfl⟩
  | cons a items ih =>
    obtain ⟨b, first⟩ := all a List.mem_cons_self
    obtain ⟨outcomes, rest⟩ := ih fun c listed => all c (List.mem_cons_of_mem a listed)
    exact ⟨b :: outcomes, mapM_eq_ok_iff.mpr (.cons first (mapM_eq_ok_iff.mp rest))⟩

/-- Going through a list fails only where a member fails. -/
theorem exists_of_mapM_eq_error {items : List σ} {e : ε} (failed : items.mapM f = .error e) :
    ∃ a ∈ items, f a = .error e := by
  induction items with
  | nil => cases failed
  | cons a items ih =>
    simp only [List.mapM_cons, bind_eq_error_iff] at failed
    rcases failed with first | ⟨b, -, rest | ⟨outcomes, -, ended⟩⟩
    · exact ⟨a, List.mem_cons_self, first⟩
    · obtain ⟨c, listed, fails⟩ := ih rest
      exact ⟨c, List.mem_cons_of_mem a listed, fails⟩
    · cases ended

end Outcomes

/-! ### Pairs of short lists -/

section Pairs

variable {σ τ : Type} {P : σ → τ → Prop} {f g k : σ} {rs : List τ}

theorem eq_of_forall₂_one (fits : List.Forall₂ P [f] rs) : ∃ r, P f r ∧ rs = [r] := by
  simpa [List.forall₂_cons_left_iff] using fits

theorem eq_of_forall₂_two (fits : List.Forall₂ P [f, g] rs) :
    ∃ r s, P f r ∧ P g s ∧ rs = [r, s] := by
  simp only [List.forall₂_cons_left_iff, List.forall₂_nil_left_iff] at fits
  obtain ⟨r, _, first, ⟨s, _, second, rfl, rfl⟩, rfl⟩ := fits
  exact ⟨r, s, first, second, rfl⟩

theorem eq_of_forall₂_three (fits : List.Forall₂ P [f, g, k] rs) :
    ∃ r s t, P f r ∧ P g s ∧ P k t ∧ rs = [r, s, t] := by
  obtain ⟨r, _, first, rest, rfl⟩ := List.forall₂_cons_left_iff.mp fits
  obtain ⟨s, t, second, third, rfl⟩ := eq_of_forall₂_two rest
  exact ⟨r, s, t, first, second, third, rfl⟩

end Pairs

theorem two_le_length_of_ne {σ : Type} {items : List σ} {a b : σ} (memberA : a ∈ items)
    (memberB : b ∈ items) (ne : a ≠ b) : 2 ≤ items.length := by
  rcases items with - | ⟨c, - | ⟨d, rest⟩⟩
  · cases memberA
  · exact absurd ((List.mem_singleton.mp memberA).trans (List.mem_singleton.mp memberB).symm) ne
  · simp

/-! ### Each member once -/

section FirstOccurrences

variable {τ : Type} [DecidableEq τ]

@[simp] theorem mem_firstOccurrences {a : τ} {items : List τ} :
    a ∈ firstOccurrences items ↔ a ∈ items := by
  induction items with
  | nil => simp [firstOccurrences]
  | cons b rest ih =>
    by_cases same : a = b
    · simp [firstOccurrences, same]
    · simp [firstOccurrences, same, ih]

theorem nodup_firstOccurrences (items : List τ) : (firstOccurrences items).Nodup := by
  induction items with
  | nil => simp [firstOccurrences]
  | cons b rest ih =>
    rw [firstOccurrences, List.nodup_cons]
    exact ⟨by simp, ih.filter _⟩

/-- Items grouped by a key, the keys in the order in which they occur first: the first items of the
groups come in the order of the items. -/
theorem pairwise_head_firstOccurrences {σ : Type} (key : σ → τ) (items : List σ) :
    (firstOccurrences (items.map key)).Pairwise fun r s =>
      ∃ a b, (items.filter fun c => key c = r).head? = some a ∧
        (items.filter fun c => key c = s).head? = some b ∧ [a, b].Sublist items := by
  induction items with
  | nil => exact .nil
  | cons c items ih =>
    rw [List.map_cons, firstOccurrences, List.pairwise_cons]
    constructor
    · intro s listed
      obtain ⟨occurs, ne⟩ := List.mem_filter.mp listed
      have other : key c ≠ s := Ne.symm (by simpa using ne)
      obtain ⟨b, member, rfl⟩ := List.mem_map.mp (mem_firstOccurrences.mp occurs)
      have nonempty : (items.filter fun d => key d = key b) ≠ [] :=
        List.ne_nil_of_mem (List.mem_filter.mpr ⟨member, by simp⟩)
      obtain ⟨first, rest, grouped⟩ := List.exists_cons_of_ne_nil nonempty
      have within : first ∈ items.filter fun d => key d = key b := by simp [grouped]
      refine ⟨c, first, by simp, by simp [other, grouped], ?_⟩
      exact (List.singleton_sublist.mpr (List.mem_filter.mp within).1).cons_cons c
    · refine (ih.filter _).imp_of_mem fun {r s} listedR listedS before => ?_
      obtain ⟨a, b, headR, headS, order⟩ := before
      have otherR : key c ≠ r := Ne.symm (by simpa using (List.mem_filter.mp listedR).2)
      have otherS : key c ≠ s := Ne.symm (by simpa using (List.mem_filter.mp listedS).2)
      exact ⟨a, b, by simpa [otherR] using headR, by simpa [otherS] using headS, order.cons c⟩

end FirstOccurrences

/-! ### One place of a list -/

section Places

variable {σ : Type} {P : σ → Prop} {items : List σ}

/-- The property holds of the item at one place, and at no other. -/
def HoldsOnce (P : σ → Prop) (items : List σ) : Prop := ∃! i : Nat, ∃ a, items[i]? = some a ∧ P a

theorem holdsOnce_of_mem {a : σ} (listed : a ∈ items) (holds : P a)
    (same : ∀ (i j : Nat) b c, items[i]? = some b → items[j]? = some c → P b → P c → i = j) :
    HoldsOnce P items := by
  obtain ⟨i, placed⟩ := List.mem_iff_getElem?.mp listed
  refine ⟨i, ⟨a, placed, holds⟩, ?_⟩
  rintro j ⟨b, placed', holds'⟩
  exact same j i b a placed' placed holds' holds

/-- It is enough that the property holds somewhere and never of two items. -/
theorem holdsOnce_of_pairwise {a : σ} (listed : a ∈ items) (holds : P a)
    (apart : items.Pairwise fun b c => ¬(P b ∧ P c)) : HoldsOnce P items := by
  refine holdsOnce_of_mem listed holds fun i j b c placed placed' holdsB holdsC => ?_
  obtain ⟨first, rfl⟩ := List.getElem?_eq_some_iff.mp placed
  obtain ⟨second, rfl⟩ := List.getElem?_eq_some_iff.mp placed'
  rw [List.pairwise_iff_getElem] at apart
  rcases Nat.lt_trichotomy i j with before | same | after
  · exact absurd ⟨holdsB, holdsC⟩ (apart i j first second before)
  · exact same
  · exact absurd ⟨holdsC, holdsB⟩ (apart j i second first after)

end Places

/-- When no key comes twice, the items of a key are none or one. -/
theorem filter_cases_of_nodup {σ τ : Type} [DecidableEq τ] {items : List σ} {f : σ → Option τ}
    (nodup : (items.filterMap f).Nodup) (k : τ) :
    (items.filter (f · = some k) = [] ∧ k ∉ items.filterMap f) ∨
      (∃ item, items.filter (f · = some k) = [item]) ∧ k ∈ items.filterMap f := by
  induction items with
  | nil => exact .inl ⟨rfl, by simp⟩
  | cons first rest ih =>
    cases key : f first with
    | none =>
      rw [List.filterMap_cons_none key] at nodup
      simpa [List.filter_cons, List.filterMap_cons, key] using ih nodup
    | some l =>
      rw [List.filterMap_cons_some key, List.nodup_cons] at nodup
      by_cases same : l = k
      · subst same
        have absent : rest.filter (f · = some l) = [] := by
          rcases ih nodup.2 with ⟨none, -⟩ | ⟨-, known⟩
          · exact none
          · exact absurd known nodup.1
        exact .inr ⟨⟨first, by simp [key, absent]⟩, by simp [key]⟩
      · simpa [List.filter_cons, List.filterMap_cons, key, same, Ne.symm same] using ih nodup.2

/-- What is kept of the images of some items is part of all their images. -/
theorem sublist_filterMap_map {σ τ : Type} {f : σ → τ} {g : σ → Option τ}
    (same : ∀ a b, g a = some b → f a = b) (items : List σ) :
    (items.filterMap g).Sublist (items.map f) := by
  induction items with
  | nil => exact .slnil
  | cons a items ih =>
    rw [List.filterMap_cons]
    split
    · exact ih.cons _
    · rename_i b kept
      rw [List.map_cons, same a b kept]
      exact ih.cons_cons b

/-! ### Lists with strangers in between -/

section Woven

variable {σ τ : Type} {P : σ → Prop} {Q : τ → Prop} {own more own' more' : List σ}

/-- The second list is the first one with strangers put in between. -/
inductive Woven (P : σ → Prop) : List σ → List σ → Prop
  | nil : Woven P [] []
  | own (a : σ) {own more : List σ} : Woven P own more → Woven P (a :: own) (a :: more)
  | stranger {a : σ} {own more : List σ} : P a → Woven P own more → Woven P own (a :: more)

namespace Woven

theorem of_strangers (strange : ∀ a ∈ more, P a) : Woven P [] more := by
  induction more with
  | nil => exact .nil
  | cons a more ih =>
    exact .stranger (strange a List.mem_cons_self)
      (ih fun b later => strange b (List.mem_cons_of_mem a later))

theorem append (first : Woven P own more) (second : Woven P own' more') :
    Woven P (own ++ own') (more ++ more') := by
  induction first with
  | nil => exact second
  | own a _ ih => exact ih.own a
  | stranger strange _ ih => exact ih.stranger strange

/-- A list with strangers behind it. -/
theorem behind (own : List σ) (strange : ∀ a ∈ more, P a) : Woven P own (own ++ more) := by
  induction own with
  | nil => exact of_strangers strange
  | cons a own ih => exact ih.own a

theorem mem_cases (woven : Woven P own more) {a : σ} (member : a ∈ more) : a ∈ own ∨ P a := by
  induction woven with
  | nil => cases member
  | own b _ ih =>
    rcases List.mem_cons.mp member with rfl | later
    · exact .inl List.mem_cons_self
    · exact (ih later).imp_left (List.mem_cons_of_mem b)
  | stranger strange _ ih =>
    rcases List.mem_cons.mp member with rfl | later
    · exact .inr strange
    · exact ih later

theorem subset (woven : Woven P own more) : own ⊆ more := by
  induction woven with
  | nil => exact List.Subset.refl []
  | own a _ ih => exact List.cons_subset_cons a ih
  | stranger _ _ ih => exact List.subset_cons_of_subset _ ih

/-- What keeps no stranger keeps the same of both lists. -/
theorem filter_eq (woven : Woven P own more) {p q : σ → Bool} (same : ∀ a ∈ own, q a = p a)
    (none : ∀ a, P a → q a = false) : more.filter q = own.filter p := by
  induction woven with
  | nil => rfl
  | own a _ ih =>
    rw [List.filter_cons, List.filter_cons, same a List.mem_cons_self,
      ih fun b later => same b (List.mem_cons_of_mem a later)]
  | stranger strange _ ih =>
    rw [List.filter_cons, none _ strange]
    exact ih same

theorem map (woven : Woven P own more) {f g : σ → τ} (same : ∀ a ∈ own, g a = f a)
    (strange : ∀ a, P a → Q (g a)) : Woven Q (own.map f) (more.map g) := by
  induction woven with
  | nil => exact .nil
  | own a _ ih =>
    rw [List.map_cons, List.map_cons, same a List.mem_cons_self]
    exact (ih fun b later => same b (List.mem_cons_of_mem a later)).own _
  | stranger holds _ ih => exact (ih same).stranger (strange _ holds)

end Woven

end Woven

end PlaneSketch
