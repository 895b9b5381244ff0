import PlaneSketch.Json.Value
import PlaneSketch.Decimal.Read

/-!
The tokens of a JSON text, each with the position of its first character.

A piece of text that is no token becomes one that says what is wrong with it. Whether that matters
is for the reader of tokens to say: it complains about the first token that does not fit.
-/

namespace PlaneSketch.Json

/-- What is wrong with a JSON text at some position. -/
inductive Complaint
  | expectingValue
  | expectingKey
  | expectingColon
  | expectingComma
  | extraData
  | unterminatedString
  | controlCharacter
  | invalidEscape
  | invalidUnicodeEscape
  | byteOrderMark
  | numeralTooLong
  deriving Repr, DecidableEq

/-- The kinds of tokens. -/
inductive Token
  | openArray | closeArray | openObject | closeObject | colon | comma
  | literal (value : Json)
  | string (value : Text)
  | bad (complaint : Complaint) (position : Nat)

/-- A token with the position of its first character. -/
structure Placed where
  position : Nat
  token : Token

/-- The value of a hexadecimal digit. -/
def hexValue? (c : Char) : Option Nat :=
  if '0' ≤ c ∧ c ≤ '9' then some (c.toNat - '0'.toNat)
  else if 'a' ≤ c ∧ c ≤ 'f' then some (c.toNat - 'a'.toNat + 10)
  else if 'A' ≤ c ∧ c ≤ 'F' then some (c.toNat - 'A'.toNat + 10)
  else none

/-- Four hexadecimal digits. -/
def hexValue4? (a b c d : Char) : Option Nat := do
  let a ← hexValue? a
  let b ← hexValue? b
  let c ← hexValue? c
  let d ← hexValue? d
  return ((a * 16 + b) * 16 + c) * 16 + d

/-- The character of a one-letter escape. -/
def escaped? : Char → Option Char
  | '"' => some '"'
  | '\\' => some '\\'
  | '/' => some '/'
  | 'b' => some '\x08'
  | 'f' => some '\x0c'
  | 'n' => some '\n'
  | 'r' => some '\r'
  | 't' => some '\t'
  | _ => none

/-- Is this the first half of a code point written as two units? -/
def isHighHalf (unit : Nat) : Bool := 0xd800 ≤ unit && unit ≤ 0xdbff

/-- Is this the second half of a code point written as two units? -/
def isLowHalf (unit : Nat) : Bool := 0xdc00 ≤ unit && unit ≤ 0xdfff

/-- The text after an opening quote at `start`: `position` is that of the first character given,
`text` holds what came before it in reverse. Gives the token and the number of characters up to
and including the closing quote. A unit escape needs a character after it. -/
def stringToken (start : Nat) : Nat → List Symbol → List Char → Token × Nat
  | position, text,
      '\\' :: 'u' :: a :: b :: c :: d :: '\\' :: 'u' :: a' :: b' :: c' :: d' :: next :: rest =>
    match hexValue4? a b c d with
    | none => (.bad .invalidUnicodeEscape (position + 1), 0)
    | some unit =>
      if isHighHalf unit then
        match hexValue4? a' b' c' d' with
        | none => (.bad .invalidUnicodeEscape (position + 7), 0)
        | some unit' =>
          if isLowHalf unit' then
            let point := 0x10000 + (unit - 0xd800) * 0x400 + (unit' - 0xdc00)
            stringToken start (position + 12) (.char (Char.ofNat point) :: text) (next :: rest)
          else
            stringToken start (position + 6) (.ofUnit unit :: text)
              ('\\' :: 'u' :: a' :: b' :: c' :: d' :: next :: rest)
      else
        stringToken start (position + 6) (.ofUnit unit :: text)
          ('\\' :: 'u' :: a' :: b' :: c' :: d' :: next :: rest)
  | position, text, '\\' :: 'u' :: a :: b :: c :: d :: next :: rest =>
    match hexValue4? a b c d with
    | none => (.bad .invalidUnicodeEscape (position + 1), 0)
    | some unit => stringToken start (position + 6) (.ofUnit unit :: text) (next :: rest)
  | position, text, '\\' :: c :: rest =>
    if c = 'u' then (.bad .invalidUnicodeEscape (position + 1), 0)
    else
      match escaped? c with
      | none => (.bad .invalidEscape position, 0)
      | some e => stringToken start (position + 2) (.char e :: text) rest
  | _, _, '\\' :: [] => (.bad .unterminatedString start, 0)
  | position, text, c :: rest =>
    if c = '"' then (.string ⟨text.reverse⟩, position - start)
    else if c.toNat < 32 then (.bad .controlCharacter position, 0)
    else stringToken start (position + 1) (.char c :: text) rest
  | _, _, [] => (.bad .unterminatedString start, 0)
  termination_by _ _ cs => cs.length

/-- The digits after a point; none when no digit follows a point. -/
def fractionPart? : List Char → Option (List Char)
  | '.' :: rest =>
    let digits := rest.takeWhile Char.isDigit
    if digits.isEmpty then none else some digits
  | _ => none

/-- A number without its sign: the token and the number of characters; none when the text does
not start with a digit. A leading zero stands alone. -/
def numberToken? (negative : Bool) (position : Nat) (cs : List Char) : Option (Token × Nat) :=
  let run := cs.takeWhile Char.isDigit
  let whole := if run.head? = some '0' then ['0'] else run
  if whole.isEmpty then none
  else
    let afterWhole := cs.drop whole.length
    let fraction := fractionPart? afterWhole
    let fractionDigits := fraction.getD []
    let fractionLength := if fraction.isSome then fractionDigits.length + 1 else 0
    let exponent := Decimal.exponentPart? (afterWhole.drop fractionLength)
    let length := whole.length + fractionLength + (exponent.map (·.2)).getD 0
    let token : Token :=
      if fraction.isNone ∧ exponent.isNone then
        if Decimal.longestNumeral < whole.length then .bad .numeralTooLong position
        else
          let size : Int := Decimal.natOfDigits whole
          .literal (.int (if negative then -size else size))
      else
        let scale : Int := (exponent.map (·.1)).getD 0 - fractionDigits.length
        let size := Decimal.nearest (Decimal.natOfDigits (whole ++ fractionDigits)) scale
        .literal (.float (if negative then -size else size))
    some (token, length)

/-- The words that stand for values. -/
def words : List (List Char × Json) := [
  ("null".toList, .null), ("true".toList, .bool true), ("false".toList, .bool false),
  ("NaN".toList, .float (0.0 / 0.0)), ("Infinity".toList, .float (1.0 / 0.0)),
  ("-Infinity".toList, .float (-1.0 / 0.0))]

/-- The first token of a text that starts with `c`, and the number of characters it takes
after `c`. -/
def tokenAt (position : Nat) (c : Char) (rest : List Char) : Token × Nat :=
  match c with
  | '[' => (.openArray, 0)
  | ']' => (.closeArray, 0)
  | '{' => (.openObject, 0)
  | '}' => (.closeObject, 0)
  | ':' => (.colon, 0)
  | ',' => (.comma, 0)
  | '"' => stringToken position (position + 1) [] rest
  | _ =>
    match words.find? fun word => word.1.isPrefixOf (c :: rest) with
    | some (word, value) => (.literal value, word.length - 1)
    | none =>
      let number :=
        if c = '-' then (numberToken? true position rest).map fun (t, n) => (t, n + 1)
        else numberToken? false position (c :: rest)
      match number with
      | some (token, length) => (token, length - 1)
      | none => (.bad .expectingValue position, 0)

/-- The characters between tokens. -/
def isSpace (c : Char) : Bool := c = ' ' || c = '\t' || c = '\n' || c = '\r'

/-- The tokens of a text whose first character stands at `position`. -/
def tokens (position : Nat) : List Char → List Placed
  | [] => []
  | c :: rest =>
    if isSpace c then tokens (position + 1) rest
    else
      let (token, more) := tokenAt position c rest
      ⟨position, token⟩ :: tokens (position + 1 + more) (rest.drop more)
  termination_by cs => cs.length
  decreasing_by all_goals simp; try omega

end PlaneSketch.Json
