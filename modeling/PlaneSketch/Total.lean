/-!
Sums of counts. The sum of joined lists is the sum of their sums.
-/

namespace PlaneSketch

/-- The sum of some counts. -/
def total : List Nat → Nat
  | [] => 0
  | count :: counts => count + total counts

@[simp] theorem total_nil : total [] = 0 := rfl

@[simp] theorem total_cons (count : Nat) (counts : List Nat) :
    total (count :: counts) = count + total counts := rfl

@[simp] theorem total_append (early late : List Nat) :
    total (early ++ late) = total early + total late := by
  induction early with
  | nil => simp
  | cons count counts ih => simp only [List.cons_append, total_cons, ih]; omega

end PlaneSketch
