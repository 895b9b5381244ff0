import PlaneSketch.Json.Quoted
import PlaneSketch.Number

/-!
Tables that are kept beside a drawing: values under keys, in the order in which keys came first.

Keys are compared by their values. A key that comes again takes the new value and keeps its place
and the form in which it came first.
-/

namespace PlaneSketch

/-- A key of a table. -/
inductive Key
  | null
  | bool (value : Bool)
  | number (value : Number)
  | text (value : Text)

namespace Key

/-- A value as a key; arrays and objects are no keys. -/
def ofJson? : Json → Option Key
  | .null => some null
  | .bool value => some (bool value)
  | .int value => some (number (.int value))
  | .float value => some (number (.float value))
  | .string value => some (text value)
  | .array _ | .object _ => none

/-- The number that a key counts as: truth values are one and zero. -/
def number? : Key → Option Number
  | bool value => some (.int (if value then 1 else 0))
  | number value => some value
  | null | text _ => none

/-- Are the keys one? -/
def same : Key → Key → Bool
  | null, null => true
  | text a, text b => a = b
  | a, b =>
    match a.number?, b.number? with
    | some x, some y => x.same y
    | _, _ => false

/-- The key in words. -/
def shown : Key → Text
  | null => "None"
  | bool value => if value then "True" else "False"
  | number value => value.text
  | text value => value

end Key

/-- Values under keys. -/
abbrev Table := List (Key × Json)

namespace Table

/-- Set a key. -/
def put (key : Key) (value : Json) : Table → Table
  | [] => [(key, value)]
  | pair :: rest => if pair.1.same key then (pair.1, value) :: rest else pair :: put key value rest

/-- The table of some pairs. -/
def ofPairs (pairs : List (Key × Json)) : Table :=
  pairs.foldl (fun table pair => put pair.1 pair.2 table) []

/-- The table as an object. Of the keys that have one text, the last one counts. -/
def json (table : Table) : Json :=
  .object (Assoc.ofPairs (table.map fun (key, value) => (key.shown, value)))

end Table

end PlaneSketch
