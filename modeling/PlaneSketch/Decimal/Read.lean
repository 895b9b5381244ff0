/-!
Reading decimal numerals: the double nearest to `digits * 10 ^ exponent`, overflow to infinity
and underflow to zero included, whatever the size of the exponent.
-/

namespace PlaneSketch.Decimal

/-- The double nearest to `mantissa * 10 ^ exponent`. Exponents far outside the range of doubles
are decided by the number of digits, so that no power of ten of that size is formed. -/
def nearest (mantissa : Nat) (exponent : Int) : Float :=
  let magnitude := exponent + ((Nat.toDigits 10 mantissa).length : Int)
  if mantissa = 0 ∨ magnitude < -400 then 0.0
  else if 400 < magnitude then 1.0 / 0.0
  else if 0 ≤ exponent then Float.ofScientific mantissa false exponent.toNat
  else Float.ofScientific mantissa true (-exponent).toNat

/-- The double nearest to an integer; none when the integer is too large for a double. -/
def ofInt? (value : Int) : Option Float :=
  let magnitude := nearest value.natAbs 0
  if magnitude == 1.0 / 0.0 then none
  else some (if value < 0 then -magnitude else magnitude)

/-- The value of a string of decimal digits. -/
def natOfDigits (digits : List Char) : Nat :=
  digits.foldl (fun n d => n * 10 + (d.toNat - '0'.toNat)) 0

/-- An exponent: its sign and digits, and the number of characters; none when no digit
follows. -/
def exponentPart? : List Char → Option (Int × Nat)
  | e :: rest =>
    if e = 'e' ∨ e = 'E' then
      let (negative, signed, digitsText) := match rest with
        | '-' :: more => (true, 1, more)
        | '+' :: more => (false, 1, more)
        | more => (false, 0, more)
      let digits := digitsText.takeWhile Char.isDigit
      if digits.isEmpty then none
      else
        let size : Int := natOfDigits digits
        some (if negative then -size else size, 1 + signed + digits.length)
    else none
  | [] => none

/-- The most digits that a whole number may have. -/
def longestNumeral : Nat := 4300

end PlaneSketch.Decimal
