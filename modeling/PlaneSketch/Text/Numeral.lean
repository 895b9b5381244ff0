import PlaneSketch.Decimal.Read
import PlaneSketch.Text.CharClass

/-!
Numbers as they are typed: blanks at both ends, digits of any script, and single underscores
between digits.
-/

namespace PlaneSketch.Text

/-- A character with a digit of any script written as an ASCII digit. -/
def plainDigit (c : Char) : Char :=
  match digitValue? c with
  | some value => Char.ofNat ('0'.toNat + value)
  | none => c

/-- The characters without underscores; none when an underscore does not stand between two
digits. `before` is the character before the first one. -/
def withoutUnderscores (before : Char) : List Char → Option (List Char)
  | [] => some []
  | '_' :: c :: rest =>
    if before.isDigit && c.isDigit then (withoutUnderscores c rest).map (c :: ·) else none
  | c :: rest => if c = '_' then none else (withoutUnderscores c rest).map (c :: ·)

/-- What is typed, without the blanks at both ends, in ASCII digits and without underscores. -/
def typed? (text : String) : Option (List Char) :=
  withoutUnderscores ' ' ((strip isMargin text.toList).map plainDigit)

/-- A sign, if there is one: is it a minus, and what follows it. -/
def splitSign : List Char → Bool × List Char
  | '-' :: rest => (true, rest)
  | '+' :: rest => (false, rest)
  | cs => (false, cs)

/-- The whole number that is typed. -/
def int? (text : String) : Option Int := do
  let (negative, digits) := splitSign (← typed? text)
  if digits.isEmpty || !digits.all Char.isDigit || Decimal.longestNumeral < digits.length then none
  else
    let size : Int := Decimal.natOfDigits digits
    return if negative then -size else size

/-- The double of a numeral without a sign: digits with or without a point, and an exponent. -/
def magnitude? (cs : List Char) : Option Float :=
  let whole := cs.takeWhile Char.isDigit
  let afterWhole := cs.dropWhile Char.isDigit
  let fractional := match afterWhole with
    | '.' :: rest => rest
    | _ => []
  let fraction := fractional.takeWhile Char.isDigit
  let rest := if afterWhole.head? = some '.' then fractional.dropWhile Char.isDigit else afterWhole
  let value (exponent : Int) : Float :=
    Decimal.nearest (Decimal.natOfDigits (whole ++ fraction)) (exponent - fraction.length)
  if whole.isEmpty && fraction.isEmpty then none
  else if rest.isEmpty then some (value 0)
  else
    match Decimal.exponentPart? rest with
    | some (exponent, length) => if length = rest.length then some (value exponent) else none
    | none => none

/-- The words for what is no finite number, in small letters. -/
def word? (cs : List Char) : Option Float :=
  let name := String.ofList (cs.map Char.toLower)
  if name = "inf" || name = "infinity" then some (1.0 / 0.0)
  else if name = "nan" then some (0.0 / 0.0)
  else none

/-- The double that is typed. -/
def double? (text : String) : Option Float := do
  let (negative, cs) := splitSign (← typed? text)
  let size ← (word? cs).or (magnitude? cs)
  return if negative then -size else size

end PlaneSketch.Text
