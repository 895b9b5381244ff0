import PlaneSketch.Decimal.Format

/-!
A few numbers in a row, as tables show them.

All numbers of a row get at most four digits after the point and are padded so that the points
stand below each other. A row whose numbers are very large, very small or far apart is written with
exponents, all with the same number of digits. A row that grows too long goes on in the next line.
-/

namespace PlaneSketch.Describe

open Decimal

/-- The most digits after the point. -/
def places : Nat := 4

/-- Blanks. -/
def blanks (count : Nat) : List Char := List.replicate count ' '

/-- A text padded with blanks on the left. -/
def padLeft (width : Nat) (text : List Char) : List Char := blanks (width - text.length) ++ text

/-- A text padded with blanks on the right. -/
def padRight (width : Nat) (text : List Char) : List Char := text ++ blanks (width - text.length)

/-- A number before it is put into its row: whole part with its sign, digits after the point, and
exponent. -/
structure Parts where
  whole : List Char
  fraction : List Char
  exponent : Int

/-- Sign and digits. -/
def signed (negative : Bool) (digits : List Char) : List Char :=
  if negative then '-' :: digits else digits

/-- The digits to be shown when at most `count` are wanted: the shortest ones when they are few
enough, else the value rounded. -/
def significantDigits (b : Binary) (count : Nat) : Significant :=
  let short := b.shortest
  if short.digits.length ≤ count then short else (b.ratio.significant count).trimmed

/-- A number with an exponent. -/
def scientificParts (b : Binary) : Parts :=
  if b.mantissa = 0 then ⟨signed b.negative ['0'], [], 0⟩
  else
    let d := significantDigits b (places + 1)
    ⟨signed b.negative (d.digits.take 1), d.digits.drop 1, d.leading⟩

/-- A number without an exponent. -/
def positionalParts (b : Binary) : Parts :=
  let digits := pointed (b.ratio.fixed places).digits places
  let fraction := (digits.dropWhile (· ≠ '.')).drop 1
  let shown := (fraction.reverse.dropWhile (· = '0')).reverse
  ⟨signed b.negative (digits.takeWhile (· ≠ '.')), shown, 0⟩

/-- Does a row need exponents? It does when a number reaches `10 ^ 8`, when one that is not zero
is below `10 ^ -4`, or when two are more than a thousand times apart. -/
def needsExponents (values : List Float) : Bool :=
  let sizes := (values.filter fun x => x.isFinite && !(x == 0.0)).map Float.abs
  match sizes with
  | [] => false
  | x :: rest =>
    let largest := rest.foldl (fun a b => if a < b then b else a) x
    let smallest := rest.foldl (fun a b => if b < a then b else a) x
    1e8 ≤ largest || smallest < 1e-4 || 1000.0 < largest / smallest

/-- The longest length. -/
def longest (texts : List (List Char)) : Nat := (texts.map List.length).foldl max 0

/-- How a row is laid out: widths left and right of the point, the latter with the exponent, and
how one of its finite numbers is written. -/
structure Layout where
  left : Nat
  right : Nat
  finite : Binary → List Char

/-- The layout of a row with exponents. -/
def exponentLayout (values : List Binary) : Layout :=
  let parts := values.map scientificParts
  let left := longest (parts.map (·.whole))
  let fraction := longest (parts.map (·.fraction))
  let exponent := longest (parts.map fun p => exponentText 2 p.exponent) - 1
  { left
    right := exponent + 2 + fraction
    finite := fun b =>
      let p := scientificParts b
      padLeft left p.whole ++ '.' :: p.fraction ++ zeros (fraction - p.fraction.length) ++
        'e' :: exponentText exponent p.exponent }

/-- The layout of a row without exponents. -/
def plainLayout (values : List Binary) : Layout :=
  let parts := values.map positionalParts
  let left := longest (parts.map (·.whole))
  let right := longest (parts.map (·.fraction))
  { left, right
    finite := fun b =>
      let p := positionalParts b
      padLeft left p.whole ++ '.' :: padRight right p.fraction }

/-- The finite numbers among some readings. -/
def finites (readings : List Reading) : List Binary :=
  readings.filterMap fun
    | .finite b => some b
    | .infinite _ | .nan => none

/-- The text of a number that is not finite. -/
def specialText : Reading → List Char
  | .infinite negative => signed negative ['i', 'n', 'f']
  | .nan | .finite _ => ['n', 'a', 'n']

/-- The words of a row of doubles. -/
def floatWords (values : List Float) : List (List Char) :=
  let readings := values.map Reading.ofFloat
  let finite := finites readings
  let layout := if needsExponents values then exponentLayout finite else plainLayout finite
  let special := readings.filter fun
    | .finite _ => false
    | .infinite _ | .nan => true
  let infinity := if readings.any (fun
    | .infinite true => true
    | _ => false) then 4 else 3
  let left := if special.isEmpty then layout.left
    else max layout.left (max (3 - (layout.right + 1)) (infinity - (layout.right + 1)))
  readings.map fun
    | .finite b => blanks (left - layout.left) ++ layout.finite b
    | other => padLeft (left + layout.right + 1) (specialText other)

/-- The words of a row of whole numbers. -/
def intWords (values : List Int) : List (List Char) :=
  let words := values.map fun n => (toString n).toList
  words.map (padLeft (longest words))

/-- The widest line before a word is put into the next one. -/
def lineWidth : Nat := 74

/-- Put words into lines, each starting with a blank; `line` is the one that is open. -/
def fill (line : List Char) : List (List Char) → List Char
  | [] => line
  | word :: rest =>
    if 1 < line.length && lineWidth < line.length + word.length then
      let ended := (line.reverse.dropWhile (· = ' ')).reverse
      let next := ' ' :: word
      ended ++ '\n' :: fill (if rest.isEmpty then next else next ++ [' ']) rest
    else
      let next := line ++ word
      fill (if rest.isEmpty then next else next ++ [' ']) rest

/-- Words in brackets. -/
def row (words : List (List Char)) : String :=
  String.ofList ('[' :: (fill [' '] words).drop 1 ++ [']'])

/-- A row of doubles. -/
def floatRow (values : List Float) : String := row (floatWords values)

/-- A row of whole numbers. -/
def intRow (values : List Int) : String := row (intWords values)

end PlaneSketch.Describe
