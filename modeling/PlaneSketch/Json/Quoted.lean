import PlaneSketch.Json.Value
import PlaneSketch.Text.Quoted
import PlaneSketch.Decimal.Format

/-!
A value as it is quoted in a message: strings in quotes, `None` for null, `True` and `False`, and
numbers by their shortest digits.
-/

namespace PlaneSketch.Json

mutual

/-- The value as quoted in a message. -/
def quoted : Json → String
  | null => "None"
  | bool value => if value then "True" else "False"
  | int value => toString value
  | float value => Decimal.exact value
  | string value => Text.quoted value
  | array items => "[" ++ quotedItems items ++ "]"
  | object fields => "\x7b" ++ quotedFields fields ++ "\x7d"

/-- Items with commas between them. -/
def quotedItems : List Json → String
  | [] => ""
  | [item] => quoted item
  | item :: rest => quoted item ++ ", " ++ quotedItems rest

/-- Fields with commas between them. -/
def quotedFields : List (Text × Json) → String
  | [] => ""
  | [(key, value)] => Text.quoted key ++ ": " ++ quoted value
  | (key, value) :: rest =>
    Text.quoted key ++ ": " ++ quoted value ++ ", " ++ quotedFields rest

end

/-- The kind of a value, in words. -/
def kindName : Json → String
  | null => "NoneType"
  | bool _ => "bool"
  | int _ => "int"
  | float _ => "float"
  | string _ => "str"
  | array _ => "list"
  | object _ => "dict"

end PlaneSketch.Json
