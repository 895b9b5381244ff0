import Mathlib
import PlaneSketch.Vec

/-!
Real numbers as scalars: arithmetic read exactly.
-/

namespace PlaneSketch

/-- An angle in degrees, in radians. -/
noncomputable def radians (degrees : ℝ) : ℝ := degrees * Real.pi / 180

open Classical in
noncomputable instance : Scalar ℝ where
  toZero := inferInstance
  toOne := inferInstance
  toAdd := inferInstance
  toSub := inferInstance
  toMul := inferInstance
  toDiv := inferInstance
  toNeg := inferInstance
  lt a b := decide (a < b)
  le a b := decide (a ≤ b)
  ofDecimal mantissa exponent := mantissa * 10 ^ exponent
  multiplyAdd a b c := a * b + c
  abs a := |a|
  sqrt a := √a
  isFinite _ := true
  cosSin? degrees := some (Real.cos (radians degrees), Real.sin (radians degrees))

/-! ### Comparisons and constants -/

@[simp] theorem Ordered.lt_real {a b : ℝ} : Ordered.lt a b = true ↔ a < b := by
  simp [Ordered.lt]

@[simp] theorem Ordered.le_real {a b : ℝ} : Ordered.le a b = true ↔ a ≤ b := by
  simp [Ordered.le]

namespace Scalar

theorem ofNat_real (n : Nat) : (ofNat n : ℝ) = n := by
  simp [ofNat, ofDecimal]

@[simp] theorem two_real : (two : ℝ) = 2 := by
  simp [two, ofNat, ofDecimal]

@[simp] theorem half_real : (half : ℝ) = 1 / 2 := by
  norm_num [half, ofDecimal]

theorem lengthFloor_real : (lengthFloor : ℝ) = 1e-12 := by
  norm_num [lengthFloor, ofDecimal]

theorem lengthFloor_pos : (0 : ℝ) < lengthFloor := by
  rw [lengthFloor_real]
  norm_num

@[simp] theorem same_real {a b : ℝ} : same a b = true ↔ a = b := by
  rw [same, Bool.and_eq_true, Ordered.le_real, Ordered.le_real, le_antisymm_iff]

end Scalar

/-! ### Vectors -/

namespace Vec2

section Components

variable {α : Type} [Scalar α] (a b : Vec2 α) (k : α)

@[simp] theorem add_x : (a + b).x = a.x + b.x := rfl
@[simp] theorem add_y : (a + b).y = a.y + b.y := rfl
@[simp] theorem sub_x : (a - b).x = a.x - b.x := rfl
@[simp] theorem sub_y : (a - b).y = a.y - b.y := rfl
@[simp] theorem scale_x : (a.scale k).x = k * a.x := rfl
@[simp] theorem scale_y : (a.scale k).y = k * a.y := rfl

end Components

theorem norm_real (a : Vec2 ℝ) : a.norm = √(a.x * a.x + a.y * a.y) := rfl

theorem norm_mul_norm (a : Vec2 ℝ) : a.norm * a.norm = a.x * a.x + a.y * a.y :=
  Real.mul_self_sqrt (add_nonneg (mul_self_nonneg _) (mul_self_nonneg _))

/-- A vector that is not too short has its quotient by its length as direction. -/
theorem direction_real {a : Vec2 ℝ} (long : Scalar.lengthFloor < a.norm) :
    a.direction = ⟨a.x / a.norm, a.y / a.norm⟩ := by
  have short : Ordered.le a.norm Scalar.lengthFloor = false := by
    rw [Bool.eq_false_iff]
    simpa using long
  simp only [direction, short, Bool.false_eq_true, if_false]

end Vec2

end PlaneSketch
