import PlaneSketch.Decimal.Binary

/-!
The fewest decimal digits that read back as a given double, and among those the nearest.

On each decimal grid only the two neighbours of the value need a test: when some point of the
grid lies in the rounding interval, so does a neighbour.
-/

namespace PlaneSketch.Decimal

/-- A decimal number as a ratio. -/
def Significant.ratio (d : Significant) : Ratio := Ratio.scale ⟨d.significand, 1⟩ d.exponent

/-- The nearest neighbour of `b` on the grid of `10 ^ exponent` that reads back as `b`. Of two
neighbours that read back the nearer is taken, of two equally near ones the even one. -/
def Binary.onGrid? (b : Binary) (exponent : Int) : Option Significant :=
  let scaled := b.ratio.scale (-exponent)
  let below : Significant := ⟨scaled.num / scaled.den, exponent⟩
  let above : Significant := ⟨scaled.num / scaled.den + 1, exponent⟩
  match b.rounds below.ratio, b.rounds above.ratio with
  | true, true => some ⟨roundDiv scaled.num scaled.den, exponent⟩
  | true, false => some below
  | false, true => some above
  | false, false => none

/-- The shortest decimal that reads back as the positive number `b`. Seventeen digits always
suffice. -/
def Binary.shortest (b : Binary) : Significant :=
  let leading := b.ratio.tenExponent
  let grids := (List.range 17).map fun (count : Nat) => leading - (count : Int)
  ((grids.findSome? b.onGrid?).getD (b.ratio.significant 17)).trimmed

end PlaneSketch.Decimal
