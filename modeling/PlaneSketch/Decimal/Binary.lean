import PlaneSketch.Decimal.Round

/-!
Doubles as exact binary numbers: a finite double is `± mantissa * 2 ^ exponent`, and the reals
that round to it form an interval around it.
-/

namespace PlaneSketch.Decimal

/-- A finite double, exactly. -/
structure Binary where
  negative : Bool
  mantissa : Nat
  exponent : Int
  deriving Repr, DecidableEq

/-- What a double denotes. -/
inductive Reading
  | finite (value : Binary)
  | infinite (negative : Bool)
  | nan
  deriving Repr, DecidableEq

/-- The number that a bit pattern of a double stands for: sign, eleven bits of exponent,
fifty-two bits of fraction. -/
def Reading.ofBits (bits : UInt64) : Reading :=
  let word := bits.toNat
  let negative := decide (Nat.pow 2 63 ≤ word)
  let biased : Nat := word / Nat.pow 2 52 % Nat.pow 2 11
  let fraction : Nat := word % Nat.pow 2 52
  if biased = 2047 then
    if fraction = 0 then .infinite negative else .nan
  else if biased = 0 then .finite ⟨negative, fraction, -1074⟩
  else .finite ⟨negative, Nat.pow 2 52 + fraction, (biased : Int) - 1075⟩

/-- The number that a double stands for. -/
def Reading.ofFloat (x : Float) : Reading := .ofBits x.toBits

namespace Binary

/-- The number without its sign. -/
def ratio (b : Binary) : Ratio :=
  if 0 ≤ b.exponent then ⟨b.mantissa * Nat.pow 2 b.exponent.toNat, 1⟩
  else ⟨b.mantissa, Nat.pow 2 (-b.exponent).toNat⟩

/-- `2 ^ -2` units of the last place: the scale on which the rounding interval has whole ends. -/
def quarter (b : Binary) (units : Nat) : Ratio :=
  Binary.ratio ⟨false, units, b.exponent - 2⟩

/-- The lower end of the reals that round to the number. Just above a power of two the doubles
below lie twice as close. -/
def lower (b : Binary) : Ratio :=
  if b.mantissa = Nat.pow 2 52 ∧ b.exponent ≠ -1074 then b.quarter (4 * b.mantissa - 1)
  else b.quarter (4 * b.mantissa - 2)

/-- The upper end of the reals that round to the number. -/
def upper (b : Binary) : Ratio := b.quarter (4 * b.mantissa + 2)

/-- The ends themselves round to the number when its last bit is zero. -/
def closed (b : Binary) : Bool := b.mantissa % 2 = 0

end Binary

/-- `r ≤ s`. -/
def Ratio.atMost (r s : Ratio) : Bool := decide (r.num * s.den ≤ s.num * r.den)

/-- `r < s`. -/
def Ratio.below (r s : Ratio) : Bool := decide (r.num * s.den < s.num * r.den)

/-- Does a reader that rounds to nearest read `r` as the double `b`? -/
def Binary.rounds (b : Binary) (r : Ratio) : Bool :=
  if b.closed then b.lower.atMost r && r.atMost b.upper
  else b.lower.below r && r.below b.upper

end PlaneSketch.Decimal
