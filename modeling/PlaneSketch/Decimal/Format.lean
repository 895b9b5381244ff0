import PlaneSketch.Decimal.Shortest

/-!
The written forms of a double.

* `exact`: the fewest digits that read back, positional from `1e-4` up to `1e16`, always with a
  fraction when positional.
* `fixed places`: a given number of digits after the point.
* `scientific places`: one digit before the point, `places` after it, exponent of two digits.
* `general digits`: at most `digits` significant digits without trailing zeros, positional while
  the exponent lies in `[-4, digits)`.

All forms round the exact binary value, a tie to the even digit.
-/

namespace PlaneSketch.Decimal

/-- `count` zeros. -/
def zeros (count : Nat) : List Char := List.replicate count '0'

/-- Digits around a decimal point: `leading` is the exponent of ten at the first digit. A
number without fraction digits has no point. -/
def positional (digits : List Char) (leading : Int) : List Char :=
  if leading < 0 then '0' :: '.' :: zeros (-leading - 1).toNat ++ digits
  else
    let whole := (leading + 1).toNat
    let fraction := digits.drop whole
    let head := digits.take whole ++ zeros (whole - digits.length)
    if fraction.isEmpty then head else head ++ '.' :: fraction

/-- An exponent: its sign and at least `width` digits. -/
def exponentText (width : Nat) (exponent : Int) : List Char :=
  let digits := Nat.toDigits 10 exponent.natAbs
  (if exponent < 0 then '-' else '+') :: zeros (width - digits.length) ++ digits

/-- One digit, the point and the other digits, `e`, and the exponent. Without other digits
there is no point. -/
def exponential (digits : List Char) (leading : Int) : List Char :=
  let mantissa := match digits with
    | [] => ['0']
    | [d] => [d]
    | d :: rest => d :: '.' :: rest
  mantissa ++ 'e' :: exponentText 2 leading

/-- A digit string with a point before its last `places` digits. -/
def pointed (digits : List Char) (places : Nat) : List Char :=
  let padded := zeros (places + 1 - digits.length) ++ digits
  let whole := padded.length - places
  if places = 0 then padded else padded.take whole ++ '.' :: padded.drop whole

/-- Write a double, given how to write a finite number without its sign. -/
def write (body : Binary → List Char) (x : Float) : String :=
  match Reading.ofFloat x with
  | .nan => "nan"
  | .infinite negative => if negative then "-inf" else "inf"
  | .finite b => String.ofList (if b.negative then '-' :: body b else body b)

/-- Shortest digits; `-0.0` keeps its sign. -/
def exact : Float → String :=
  write fun b =>
    if b.mantissa = 0 then ['0', '.', '0']
    else
      let d := b.shortest
      if -4 ≤ d.leading ∧ d.leading < 16 then
        let text := positional d.digits d.leading
        if text.contains '.' then text else text ++ ['.', '0']
      else exponential d.digits d.leading

/-- A fixed number of digits after the point. -/
def fixed (places : Nat) : Float → String :=
  write fun b => pointed (b.ratio.fixed places).digits places

/-- One digit before the point and `places` after it. -/
def scientific (places : Nat) : Float → String :=
  write fun b =>
    if b.mantissa = 0 then exponential (zeros (places + 1)) 0
    else
      let d := b.ratio.significant (places + 1)
      exponential d.digits d.leading

/-- At most `digits` significant digits. -/
def general (digits : Nat) : Float → String :=
  write fun b =>
    if b.mantissa = 0 then ['0']
    else
      let d := (b.ratio.significant digits)
      let short := d.trimmed.digits
      if -4 ≤ d.leading ∧ d.leading < digits then positional short d.leading
      else exponential short d.leading

end PlaneSketch.Decimal
