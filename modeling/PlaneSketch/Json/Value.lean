import PlaneSketch.Assoc
import PlaneSketch.Text.Symbols

/-!
JSON values. Whole numbers and numbers written with a fraction or an exponent stay apart; an object
keeps the order of its keys and holds each key once.
-/

namespace PlaneSketch

/-- A JSON value. -/
inductive Json
  | null
  | bool (value : Bool)
  | int (value : Int)
  | float (value : Float)
  | string (value : Text)
  | array (items : List Json)
  | object (fields : List (Text × Json))
  deriving Inhabited

namespace Json

/-- The value of a key of an object; none for a missing key and for any other value. -/
def field? (key : Text) : Json → Option Json
  | object fields => Assoc.find? key fields
  | _ => none

/-- The value of a key, null when there is none. -/
def field (key : Text) (value : Json) : Json := (value.field? key).getD .null

/-- Does the value count as present? Null, false, zero and empty values do not. -/
def isPresent : Json → Bool
  | null => false
  | bool value => value
  | int value => value != 0
  | float value => !(value == 0.0)
  | string value => !value.isEmpty
  | array items => !items.isEmpty
  | object fields => !fields.isEmpty

end Json

end PlaneSketch
