import PlaneSketch.Decimal.Format
import PlaneSketch.Json.Value
import PlaneSketch.Text.Quoted

/-!
Writing a JSON value: on one line, or with each item on a line of its own. How a number with a
fraction is written is for the caller to say.
-/

namespace PlaneSketch.Json

/-- A code unit as an escape of four hexadecimal digits. -/
def unitEscape (unit : Nat) : List Char := '\\' :: 'u' :: Text.hexadecimal 4 unit

/-- A character inside a JSON string. Everything outside printable ASCII is escaped, code points
above `0xffff` as two units. -/
def escape (c : Char) : List Char :=
  let n := c.toNat
  if c = '"' ∨ c = '\\' then ['\\', c]
  else if c = '\n' then ['\\', 'n']
  else if c = '\r' then ['\\', 'r']
  else if c = '\t' then ['\\', 't']
  else if n = 8 then ['\\', 'b']
  else if n = 12 then ['\\', 'f']
  else if 32 ≤ n ∧ n < 127 then [c]
  else if n < 0x10000 then unitEscape n
  else
    let offset := n - 0x10000
    unitEscape (0xd800 + offset / 0x400) ++ unitEscape (0xdc00 + offset % 0x400)

/-- A symbol inside a JSON string. -/
def escapeSymbol : Symbol → List Char
  | .char c => escape c
  | .half offset => unitEscape (Symbol.halfUnit offset)

/-- A text as a JSON string. -/
def stringText (text : Text) : String :=
  "\"" ++ String.ofList (text.symbols.flatMap escapeSymbol) ++ "\""

/-- A number with a fraction: shortest digits, or the words for what is no finite number. -/
def numberText (x : Float) : String :=
  if x.isNaN then "NaN"
  else if x.isInf then (if x < 0.0 then "-Infinity" else "Infinity")
  else Decimal.exact x

mutual

/-- The value on one line. -/
def compact (number : Float → String) : Json → String
  | null => "null"
  | bool value => if value then "true" else "false"
  | int value => toString value
  | float value => number value
  | string value => stringText value
  | array items => "[" ++ compactItems number items ++ "]"
  | object fields => "\x7b" ++ compactFields number fields ++ "\x7d"

/-- Items with commas between them. -/
def compactItems (number : Float → String) : List Json → String
  | [] => ""
  | [item] => compact number item
  | item :: rest => compact number item ++ ", " ++ compactItems number rest

/-- Fields with commas between them. -/
def compactFields (number : Float → String) : List (Text × Json) → String
  | [] => ""
  | [(key, value)] => stringText key ++ ": " ++ compact number value
  | (key, value) :: rest =>
    stringText key ++ ": " ++ compact number value ++ ", " ++ compactFields number rest

end

/-- A line break followed by two blanks for each open bracket. -/
def lineBreak (depth : Nat) : String := "\n" ++ String.ofList (List.replicate (2 * depth) ' ')

mutual

/-- The value with each item on a line of its own, indented by two blanks per level. Empty arrays
and objects stay on one line. -/
def pretty (number : Float → String) (depth : Nat) : Json → String
  | null => "null"
  | bool value => if value then "true" else "false"
  | int value => toString value
  | float value => number value
  | string value => stringText value
  | array items =>
    if items.isEmpty then "[]"
    else "[" ++ prettyItems number (depth + 1) items ++ lineBreak depth ++ "]"
  | object fields =>
    if fields.isEmpty then "\x7b\x7d"
    else "\x7b" ++ prettyFields number (depth + 1) fields ++ lineBreak depth ++ "\x7d"

/-- Each item on its own line. -/
def prettyItems (number : Float → String) (depth : Nat) : List Json → String
  | [] => ""
  | [item] => lineBreak depth ++ pretty number depth item
  | item :: rest =>
    lineBreak depth ++ pretty number depth item ++ "," ++ prettyItems number depth rest

/-- Each field on its own line. -/
def prettyFields (number : Float → String) (depth : Nat) : List (Text × Json) → String
  | [] => ""
  | [(key, value)] => lineBreak depth ++ stringText key ++ ": " ++ pretty number depth value
  | (key, value) :: rest =>
    lineBreak depth ++ stringText key ++ ": " ++ pretty number depth value ++ "," ++
      prettyFields number depth rest

end

end PlaneSketch.Json
