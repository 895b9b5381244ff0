/-!
Rounding of quotients and placement of a quotient among the powers of ten, in exact natural
arithmetic. `roundDiv` is within half a unit of the quotient and sends a tie to the even
neighbour; `tenExponent` is the place of the first digit.
-/

namespace PlaneSketch.Decimal

/-- The natural number nearest to `num / den`; a tie goes to the even neighbour. -/
def roundDiv (num den : Nat) : Nat :=
  let quotient := num / den
  let twice := 2 * (num % den)
  if den < twice then quotient + 1
  else if twice < den then quotient
  else if quotient % 2 = 0 then quotient
  else quotient + 1

/-- A positive rational number. -/
structure Ratio where
  num : Nat
  den : Nat

namespace Ratio

/-- The number times a power of ten. -/
def scale (r : Ratio) (exponent : Int) : Ratio :=
  if 0 ≤ exponent then ⟨r.num * Nat.pow 10 exponent.toNat, r.den⟩
  else ⟨r.num, r.den * Nat.pow 10 (-exponent).toNat⟩

/-- Is `10 ^ exponent` at most the number? -/
def reaches (r : Ratio) (exponent : Int) : Bool :=
  let scaled := r.scale (-exponent)
  decide (scaled.den ≤ scaled.num)

/-- The exponent of the largest power of ten that is at most the number. The two binary
logarithms give it up to two units; the candidates around that estimate are tried from above. -/
def tenExponent (r : Ratio) : Int :=
  let estimate := ((r.num.log2 : Int) - (r.den.log2 : Int)) * 30103 / 100000
  let candidates := [estimate + 2, estimate + 1, estimate, estimate - 1, estimate - 2]
  (candidates.find? r.reaches).getD (estimate - 3)

end Ratio

/-- A decimal number `significand * 10 ^ exponent`, all of whose digits are to be shown. -/
structure Significant where
  significand : Nat
  exponent : Int
  deriving Repr, DecidableEq

namespace Significant

/-- The digits of the significand, most significant first. -/
def digits (d : Significant) : List Char := Nat.toDigits 10 d.significand

/-- The exponent of ten at the first digit. -/
def leading (d : Significant) : Int := d.exponent + (d.digits.length : Int) - 1

/-- The same number without the zeros at the end of its significand. -/
def trimmed (d : Significant) : Significant :=
  let zeros := (d.digits.reverse.takeWhile (· = '0')).length
  if d.significand = 0 then d
  else ⟨d.significand / Nat.pow 10 zeros, d.exponent + zeros⟩

end Significant

/-- The number rounded to `count` significant digits. Rounding up to the next power of ten
keeps the digit count: the significand is then written with one zero less. -/
def Ratio.significant (r : Ratio) (count : Nat) : Significant :=
  let exponent := r.tenExponent + 1 - count
  let scaled := r.scale (-exponent)
  let rounded := roundDiv scaled.num scaled.den
  if rounded = Nat.pow 10 count then ⟨Nat.pow 10 (count - 1), exponent + 1⟩
  else ⟨rounded, exponent⟩

/-- The number rounded to `places` digits after the decimal point. -/
def Ratio.fixed (r : Ratio) (places : Nat) : Significant :=
  let scaled := r.scale places
  ⟨roundDiv scaled.num scaled.den, -places⟩

end PlaneSketch.Decimal
