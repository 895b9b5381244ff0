import PlaneSketch.Describe.Numbers
import PlaneSketch.Text.Quoted
import PlaneSketch.Variable

/-!
Values as logs show them: short, with long lists cut.
-/

namespace PlaneSketch

/-- A value to be shown. -/
inductive Shown
  /-- an array of doubles of some shape -/
  | floats (shape : List Nat) (entries : List Float)
  /-- an array of whole numbers of some shape -/
  | ints (shape : List Nat) (entries : List Int)
  /-- an array of something else -/
  | others (shape : List Nat)
  | handle (h : Handle)
  /-- something with free variables and rows -/
  | part (kind : String) (free rows : Nat)
  | block (key : String) (rows : Nat)
  | map (pairs : List (Shown × Shown))
  | tuple (items : List Shown)
  | list (items : List Shown)
  | number (x : Float)
  | whole (n : Int)
  | truth (value : Bool)
  | absent
  | string (text : Text)
  /-- a value with a text of its own -/
  | plain (text : String)
  deriving Inhabited

namespace Shown

/-- The most items of a list that are shown. -/
def longestList : Nat := 6

/-- The most characters of a text that are shown. -/
def longestText : Nat := 240

/-- A variable of a feature. -/
def ofVariable (v : Variable) : Shown := tuple [handle v.handle, string v.component.name]

/-- A text, cut when it is too long. -/
def cut (text : String) : String :=
  if longestText < text.length then String.ofList (text.toList.take longestText) ++ "..."
  else text

/-- A shape: lengths in parentheses, a single one with a comma behind it. -/
def shapeText : List Nat → String
  | [] => "()"
  | [n] => s!"({n},)"
  | ns => "(" ++ String.intercalate ", " (ns.map fun (n : Nat) => toString n) ++ ")"

/-- The smallest and the largest of some doubles. -/
def span : List Float → Option (Float × Float)
  | [] => none
  | x :: rest =>
    some (rest.foldl (fun a b => if b < a then b else a) x,
      rest.foldl (fun a b => if a < b then b else a) x)

/-- What is shown of many numbers: the span of the finite ones. -/
def spanText (values : List Float) : String :=
  match span (values.filter Float.isFinite) with
  | none => "non-finite"
  | some (low, high) => s!"in [{Decimal.general 4 low}, {Decimal.general 4 high}]"

/-- The items that are shown, and how many are not. -/
def shorten (texts : List String) : List String :=
  if longestList < texts.length then
    texts.take longestList ++ [s!"+{texts.length - longestList} more"]
  else texts

/-- Texts with commas between them. -/
def joined (texts : List String) : String := String.intercalate ", " (shorten texts)

/-- An array with its shape; few numbers are all shown. -/
def arrayText (shape : List Nat) (count : Nat) (few many : String) : String :=
  let head := "array" ++ shapeText shape
  if count = 0 then head
  else if count ≤ longestList then head ++ " " ++ few
  else head ++ " " ++ many

mutual

/-- The value in words. -/
def text : Shown → String
  | floats shape entries =>
    arrayText shape entries.length (Describe.floatRow entries) (spanText entries)
  | ints shape entries =>
    arrayText shape entries.length (Describe.intRow entries) (spanText (entries.map Float.ofInt))
  | others shape => "array" ++ shapeText shape
  | handle h => h.text
  | part kind free rows => s!"{kind}(free={free}, rows={rows})"
  | block key rows => s!"block {key} ({rows} rows)"
  | map pairs => "\x7b" ++ joined (pairTexts pairs) ++ "\x7d"
  | tuple [handle h, string name] => s!"{h.text}.{name.plain}"
  | tuple items => "(" ++ joined (texts items) ++ ")"
  | list items => "[" ++ joined (texts items) ++ "]"
  | number x => Decimal.general 6 x
  | whole n => cut (toString n)
  | truth value => if value then "True" else "False"
  | absent => "None"
  | string s => cut (Text.quoted s)
  | plain s => cut s

/-- The texts of some values. -/
def texts : List Shown → List String
  | [] => []
  | item :: rest => text item :: texts rest

/-- The texts of some pairs. -/
def pairTexts : List (Shown × Shown) → List String
  | [] => []
  | (key, value) :: rest => (text key ++ "=" ++ text value) :: pairTexts rest

end

end Shown

end PlaneSketch
