import Mathlib
import PlaneSketch.Scalar.Real
import PlaneSketch.LinearAlgebra.Vector

/-!
Laws of numbers some of which may be undefined.

What holds of a solve whatever its numbers are is shown from a few laws of comparison and
multiplication. They are those of rounded arithmetic with infinities and an undefined number:
a comparison with an undefined number fails, and rounding keeps order.

* `laws_real`: the real numbers obey them.
* `laws_partialReal`: so do the real numbers together with an undefined one.
* `Laws.abs_lt_of_isUsable`: every entry of usable residuals is a number, and below the ceiling.
* `Laws.maxAbs_lt`: the largest magnitude is below a bound when every magnitude is.
-/

namespace PlaneSketch

/-- The order is total on the numbers that are comparable with themselves, all others are comparable
with none, and a factor above or below one takes a positive number up or down. -/
structure Scalar.Laws (α : Type) [Scalar α] : Prop where
  lt_trans : ∀ {a b c : α}, Ordered.lt a b = true → Ordered.lt b c = true → Ordered.lt a c = true
  le_of_lt : ∀ {a b : α}, Ordered.lt a b = true → Ordered.le a b = true
  lt_of_lt_of_le : ∀ {a b c : α}, Ordered.lt a b = true → Ordered.le b c = true →
    Ordered.lt a c = true
  lt_of_le_of_lt : ∀ {a b c : α}, Ordered.le a b = true → Ordered.lt b c = true →
    Ordered.lt a c = true
  le_trans : ∀ {a b c : α}, Ordered.le a b = true → Ordered.le b c = true → Ordered.le a c = true
  le_self : ∀ {a b : α}, Ordered.le a b = true → Ordered.le a a = true ∧ Ordered.le b b = true
  le_of_not_lt : ∀ {a b : α}, Ordered.le a a = true → Ordered.le b b = true →
    Ordered.lt a b = false → Ordered.le b a = true
  /-- The sum of two numbers that cannot be compared is below nothing. -/
  not_add_lt : ∀ {a b c : α}, Ordered.lt a b = false → Ordered.le b a = false →
    Ordered.lt (a + b) c = false
  mul_le : ∀ {a b : α}, Ordered.lt 0 a = true → Ordered.lt 0 b = true → Ordered.lt b 1 = true →
    Ordered.le (a * b) a = true
  le_mul : ∀ {a b : α}, Ordered.lt 0 a = true → Ordered.lt 1 b = true → Ordered.le a (a * b) = true
  sqrt_zero_le : ∀ {a : α}, Ordered.lt 0 a = true → Ordered.le (Scalar.sqrt 0) a = true
  ceiling_pos : Ordered.lt 0 (Scalar.residualCeiling : α) = true

/-! ### Bounds on all entries -/

section Bounds

variable {α : Type} [Scalar α] {a b c m r : α} {xs : List α}

/-- The larger of two numbers is below a bound only if both are. -/
theorem Scalar.Laws.lt_of_greater_lt (laws : Scalar.Laws α)
    (below : Ordered.lt (Scalar.greater a b) c = true) :
    Ordered.lt a c = true ∧ Ordered.lt b c = true := by
  unfold Scalar.greater at below
  split at below
  · rename_i less
    exact ⟨laws.lt_trans less below, below⟩
  · rename_i less
    split at below
    · rename_i order
      exact ⟨below, laws.lt_of_le_of_lt order below⟩
    · -- the sum of what cannot be compared is below nothing
      rename_i order
      rw [laws.not_add_lt (Bool.eq_false_iff.mpr less) (Bool.eq_false_iff.mpr order)] at below
      cases below

theorem Scalar.Laws.lt_of_foldl_greater_lt (laws : Scalar.Laws α)
    (below : Ordered.lt (xs.foldl (fun m x => Scalar.greater m (Scalar.abs x)) m) c = true) :
    Ordered.lt m c = true ∧ ∀ r ∈ xs, Ordered.lt (Scalar.abs r) c = true := by
  induction xs generalizing m with
  | nil => exact ⟨below, fun _ listed => absurd listed List.not_mem_nil⟩
  | cons x xs ih =>
    obtain ⟨first, rest⟩ := ih below
    obtain ⟨before, here⟩ := laws.lt_of_greater_lt first
    refine ⟨before, fun r listed => ?_⟩
    rcases List.mem_cons.mp listed with rfl | later
    · exact here
    · exact rest r later

/-- When the largest magnitude is below a bound, so is every magnitude. -/
theorem Scalar.Laws.abs_lt_of_maxAbs_lt (laws : Scalar.Laws α)
    (below : Ordered.lt (Vector.maxAbs xs) c = true) (listed : r ∈ xs) :
    Ordered.lt (Scalar.abs r) c = true :=
  (laws.lt_of_foldl_greater_lt below).2 r listed

/-- Two numbers below a bound can be compared, so that the larger of them is one of them. -/
theorem Scalar.Laws.greater_lt (laws : Scalar.Laws α) (first : Ordered.lt a c = true)
    (second : Ordered.lt b c = true) : Ordered.lt (Scalar.greater a b) c = true := by
  unfold Scalar.greater
  split
  · exact second
  · rename_i above
    split
    · exact first
    · rename_i unordered
      have self := (laws.le_self (laws.le_of_lt first)).1
      have self' := (laws.le_self (laws.le_of_lt second)).1
      exact absurd (laws.le_of_not_lt self self' (Bool.eq_false_iff.mpr above)) unordered

theorem Scalar.Laws.foldl_greater_lt (laws : Scalar.Laws α) (first : Ordered.lt m c = true)
    (below : ∀ r ∈ xs, Ordered.lt (Scalar.abs r) c = true) :
    Ordered.lt (xs.foldl (fun m x => Scalar.greater m (Scalar.abs x)) m) c = true := by
  induction xs generalizing m with
  | nil => exact first
  | cons x xs ih =>
    obtain ⟨here, later⟩ := List.forall_mem_cons.mp below
    exact ih (laws.greater_lt first here) later

/-- When every magnitude is below a positive bound, so is the largest one. -/
theorem Scalar.Laws.maxAbs_lt (laws : Scalar.Laws α) (positive : Ordered.lt 0 c = true)
    (below : ∀ r ∈ xs, Ordered.lt (Scalar.abs r) c = true) :
    Ordered.lt (Vector.maxAbs xs) c = true :=
  laws.foldl_greater_lt positive below

/-- **Usable residuals are numbers below the ceiling**, one by one. -/
theorem Scalar.Laws.abs_lt_of_isUsable (laws : Scalar.Laws α)
    (usable : Vector.isUsable xs = true) (listed : r ∈ xs) :
    Scalar.isFinite r = true ∧ Ordered.lt (Scalar.abs r) Scalar.residualCeiling = true := by
  obtain ⟨finite, below⟩ := Bool.and_eq_true_iff.mp usable
  exact ⟨List.all_eq_true.mp finite r listed, laws.abs_lt_of_maxAbs_lt below listed⟩

end Bounds

/-! ### Real numbers -/

theorem Scalar.laws_real : Scalar.Laws ℝ where
  lt_trans := by
    intro a b c
    simpa using lt_trans (a := a)
  le_of_lt := by
    intro a b
    simpa using le_of_lt (a := a)
  lt_of_lt_of_le := by
    intro a b c
    simpa using lt_of_lt_of_le (a := a)
  lt_of_le_of_lt := by
    intro a b c
    simpa using lt_of_le_of_lt (a := a)
  le_trans := by
    intro a b c
    simpa using le_trans (a := a)
  le_self := by simp
  le_of_not_lt := by
    intro a b _ _ above
    simpa [Ordered.lt] using above
  not_add_lt := by
    intro a b c above below
    have less : a < b := by simpa [Ordered.le] using below
    exact absurd (Ordered.lt_real.mpr less) (by simp [above])
  mul_le := by
    intro a b positive _ less
    rw [Ordered.lt_real] at positive less
    exact Ordered.le_real.mpr (mul_le_of_le_one_right positive.le less.le)
  le_mul := by
    intro a b positive more
    rw [Ordered.lt_real] at positive more
    exact Ordered.le_real.mpr (le_mul_of_one_le_right positive.le more.le)
  sqrt_zero_le := by
    intro a positive
    rw [Ordered.lt_real] at positive
    exact Ordered.le_real.mpr (Real.sqrt_zero.trans_le positive.le)
  ceiling_pos := by
    rw [Ordered.lt_real]
    norm_num [Scalar.residualCeiling, Scalar.ofDecimal]

/-! ### Real numbers and an undefined one -/

/-- A real number, or what a computation without a result leaves. -/
inductive PartialReal
  | undefined
  | of (value : ℝ)

namespace PartialReal

/-- A relation that fails on the undefined number. -/
def related (holds : ℝ → ℝ → Bool) : PartialReal → PartialReal → Bool
  | of a, of b => holds a b
  | _, _ => false

/-- An operation of one number, undefined where it has no result. -/
noncomputable def unary (f : ℝ → PartialReal) : PartialReal → PartialReal
  | of a => f a
  | undefined => undefined

/-- An operation of two numbers, undefined where it has no result. -/
noncomputable def binary (f : ℝ → ℝ → PartialReal) : PartialReal → PartialReal → PartialReal
  | of a, of b => f a b
  | _, _ => undefined

open Classical in
noncomputable instance : Scalar PartialReal where
  zero := of 0
  one := of 1
  lt := related fun a b => decide (a < b)
  le := related fun a b => decide (a ≤ b)
  add := binary fun a b => of (a + b)
  sub := binary fun a b => of (a - b)
  mul := binary fun a b => of (a * b)
  div := binary fun a b => if b = 0 then undefined else of (a / b)
  neg := unary fun a => of (-a)
  ofDecimal mantissa exponent := of (Scalar.ofDecimal mantissa exponent)
  multiplyAdd a b c := binary (fun p c => of (p + c)) (binary (fun a b => of (a * b)) a b) c
  abs := unary fun a => of |a|
  sqrt := unary fun a => if a < 0 then undefined else of √a
  isFinite
    | of _ => true
    | undefined => false
  cosSin? degrees := some (unary (fun d => of (Real.cos (radians d))) degrees,
    unary (fun d => of (Real.sin (radians d))) degrees)

variable {a b : ℝ} {p q : PartialReal}

theorem lt_of : Ordered.lt (of a) (of b) = true ↔ a < b := by
  simp [Ordered.lt, related]

theorem le_of : Ordered.le (of a) (of b) = true ↔ a ≤ b := by
  simp [Ordered.le, related]

theorem mul_of : of a * of b = of (a * b) := rfl

theorem exists_of_lt (less : Ordered.lt p q = true) : ∃ a b, p = of a ∧ q = of b ∧ a < b := by
  cases p with
  | undefined => cases less
  | of a =>
    cases q with
    | undefined => cases less
    | of b => exact ⟨a, b, rfl, rfl, lt_of.mp less⟩

theorem exists_of_le (order : Ordered.le p q = true) : ∃ a b, p = of a ∧ q = of b ∧ a ≤ b := by
  cases p with
  | undefined => cases order
  | of a =>
    cases q with
    | undefined => cases order
    | of b => exact ⟨a, b, rfl, rfl, le_of.mp order⟩

end PartialReal

open PartialReal in
theorem Scalar.laws_partialReal : Scalar.Laws PartialReal where
  lt_trans := by
    intro p q r first second
    obtain ⟨a, b, rfl, rfl, less⟩ := exists_of_lt first
    obtain ⟨_, c, same, rfl, less'⟩ := exists_of_lt second
    cases same
    exact lt_of.mpr (less.trans less')
  le_of_lt := by
    intro p q below
    obtain ⟨a, b, rfl, rfl, less⟩ := exists_of_lt below
    exact le_of.mpr less.le
  lt_of_lt_of_le := by
    intro p q r first second
    obtain ⟨a, b, rfl, rfl, less⟩ := exists_of_lt first
    obtain ⟨_, c, same, rfl, order⟩ := exists_of_le second
    cases same
    exact lt_of.mpr (less.trans_le order)
  lt_of_le_of_lt := by
    intro p q r first second
    obtain ⟨a, b, rfl, rfl, order⟩ := exists_of_le first
    obtain ⟨_, c, same, rfl, less⟩ := exists_of_lt second
    cases same
    exact lt_of.mpr (order.trans_lt less)
  le_trans := by
    intro p q r first second
    obtain ⟨a, b, rfl, rfl, order⟩ := exists_of_le first
    obtain ⟨_, c, same, rfl, order'⟩ := exists_of_le second
    cases same
    exact le_of.mpr (order.trans order')
  le_self := by
    intro p q order
    obtain ⟨a, b, rfl, rfl, -⟩ := exists_of_le order
    exact ⟨le_of.mpr le_rfl, le_of.mpr le_rfl⟩
  le_of_not_lt := by
    intro p q left right above
    obtain ⟨a, -, rfl, -⟩ := exists_of_le left
    obtain ⟨b, -, rfl, -⟩ := exists_of_le right
    rw [Bool.eq_false_iff] at above
    exact le_of.mpr (not_lt.mp (mt lt_of.mpr above))
  not_add_lt := by
    intro p q r above below
    rw [Bool.eq_false_iff] at above below
    cases p with
    | undefined => rfl
    | of a =>
      cases q with
      | undefined => rfl
      | of b => exact absurd (not_lt.mp (mt lt_of.mpr above)) (mt le_of.mpr below)
  mul_le := by
    intro p q positive _ less
    obtain ⟨_, a, same, rfl, positive⟩ := exists_of_lt positive
    obtain ⟨b, _, rfl, same', less⟩ := exists_of_lt less
    cases same
    cases same'
    rw [mul_of, le_of]
    exact mul_le_of_le_one_right positive.le less.le
  le_mul := by
    intro p q positive more
    obtain ⟨_, a, same, rfl, positive⟩ := exists_of_lt positive
    obtain ⟨_, b, same', rfl, more⟩ := exists_of_lt more
    cases same
    cases same'
    rw [mul_of, le_of]
    exact le_mul_of_one_le_right positive.le more.le
  sqrt_zero_le := by
    intro p positive
    obtain ⟨_, a, same, rfl, positive⟩ := exists_of_lt positive
    cases same
    have root : Scalar.sqrt (0 : PartialReal) = of 0 := by
      show (if (0 : ℝ) < 0 then undefined else of √0) = of 0
      rw [if_neg (lt_irrefl 0), Real.sqrt_zero]
    rw [root, le_of]
    exact positive.le
  ceiling_pos := by
    have ceiling : (Scalar.residualCeiling : PartialReal) = of (1 * 10 ^ (150 : ℤ)) := by
      norm_num [Scalar.residualCeiling, Scalar.ofDecimal]
    rw [ceiling]
    exact lt_of.mpr (by positivity)

end PlaneSketch
