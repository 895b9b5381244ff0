import PlaneSketch.Decimal.Binary

/-!
Multiplication and addition of doubles in one step, rounded once.

The exact value is formed as a whole number times a power of two and then brought to fifty-three
bits, a tie to the even neighbour.
-/

namespace PlaneSketch

open Decimal

/-- The number with its sign, without the power of two. -/
def Decimal.Binary.signed (b : Binary) : Int := if b.negative then -b.mantissa else b.mantissa

/-- The double nearest to `mantissa * 2 ^ exponent`. No double has bits below `2 ^ -1074`. -/
def nearestDouble (mantissa exponent : Int) : Float :=
  let size := mantissa.natAbs
  let bits : Int := if size = 0 then 0 else size.log2 + 1
  let shift := max (bits - 53) (-1074 - exponent)
  let kept := if 0 < shift then roundDiv size (Nat.pow 2 shift.toNat) else size
  let scale := if 0 < shift then exponent + shift else exponent
  let magnitude := kept.toUInt64.toFloat.scaleB scale
  if mantissa < 0 then -magnitude else magnitude

/-- `a * b + c`, rounded once. -/
def fusedMultiplyAdd (a b c : Float) : Float :=
  match Reading.ofFloat a, Reading.ofFloat b, Reading.ofFloat c with
  | .finite p, .finite q, .finite r =>
    let product := p.exponent + q.exponent
    let exponent := min product r.exponent
    nearestDouble
      (p.signed * q.signed * Nat.pow 2 (product - exponent).toNat +
        r.signed * Nat.pow 2 (r.exponent - exponent).toNat) exponent
  | .finite _, .finite _, _ => c
  | _, _, _ => a * b + c

end PlaneSketch
