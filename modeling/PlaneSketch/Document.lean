import PlaneSketch.Document.Table
import PlaneSketch.Scalar.Double
import PlaneSketch.Sketch

/-!
Drawings as they are kept in files.

A document lists features, constraints and groups as records; a record refers to features by their
position in the list. Feature `i` of the document becomes feature `#i` of the drawing. A position
that no record has stays as a handle that names nothing, for validation to report.
-/

namespace PlaneSketch

/-- A drawing together with what its editor keeps beside it. -/
structure Document where
  sketch : Sketch Float
  viewport : Table
  properties : Table

/-- A place in a document. -/
inductive Place
  | whole
  | record (list : String) (index : Nat)
  deriving Repr, DecidableEq

/-- The place in words. -/
def Place.text : Place → String
  | whole => "sketch"
  | record list index => s!"{list}[{index}]"

/-- Why a document holds no drawing. -/
inductive DecodeError
  | notAString (place : Place) (what : String) (got : Json)
  | unknownName (place : Place) (what : String) (name : Text)
  | notANumber (place : Place) (got : Json)
  | notAnInteger (place : Place) (got : Json)
  | notIndices (place : Place) (got : Json)
  | notAnIndex (place : Place) (got : Json)
  | notAnObject (place : Place) (got : Json)
  | notACardinality (place : Place) (got : Json)
  | notAPosition (place : Place) (got : Json)
  | notAList (key : String)
  /-- a whole number is too large for a coordinate -/
  | numberTooLarge
  /-- a table is made of something that has no parts -/
  | noParts
  /-- a table is made of parts that are no pairs -/
  | noPairs

/-- The error in words; none when it has no text of its own. -/
def DecodeError.message? : DecodeError → Option String
  | notAString place what got => some s!"{place.text}: {what} must be a string, got {got.quoted}"
  | unknownName place what name => some s!"{place.text}: unknown {what} {Text.quoted name}"
  | notANumber place got => some s!"{place.text}: expected a number, got {got.quoted}"
  | notAnInteger place got => some s!"{place.text}: expected an integer, got {got.quoted}"
  | notIndices place got => some s!"{place.text}: expected a list of indices, got {got.quoted}"
  | notAnIndex place got =>
    some s!"{place.text}: feature index must be an integer, got {got.quoted}"
  | notAnObject place got => some s!"{place.text}: expected an object, got {got.kindName}"
  | notACardinality place got =>
    some s!"{place.text}: cardinality must be [axis, negated], got {got.quoted}"
  | notAPosition place got => some (place.text ++ ": 'at' must be a pair, got " ++ got.quoted)
  | notAList key => some ("'" ++ key ++ "' must be a list")
  | numberTooLarge | noParts | noPairs => none

namespace Document

/-! ### Names -/

/-- Names are read without regard to case, underscores and hyphens. -/
def plainName (name : String) : String :=
  String.ofList ((name.toList.filter fun c => c ≠ '_' && c ≠ '-').map Char.toLower)

/-- The names of features. -/
def featureNames : List (String × FeatureKind) := [
  ("point", .point), ("line", .line), ("linesegment", .line), ("circle", .circle), ("arc", .arc),
  ("gear", .gear), ("spurgear", .gear)]

/-- The names of constraints. -/
def constraintNames : List (String × ConstraintKind) := [
  ("fixed", .fixed), ("length", .length), ("linelength", .length), ("pointdistance", .length),
  ("radius", .radius), ("circleradius", .radius), ("radiusequal", .radiusEqual),
  ("circleradiusequal", .radiusEqual), ("parallel", .parallel), ("linesparallel", .parallel),
  ("perpendicular", .perpendicular), ("linesperpendicular", .perpendicular), ("angle", .angle),
  ("lineangle", .angle), ("coincident", .coincident), ("pointcoincident", .coincident),
  ("pointsoncircle", .coincident), ("symmetric", .symmetric), ("pointssymmetric", .symmetric),
  ("alongaxis", .alongAxis), ("linealongcardinal", .alongAxis), ("lerp", .lerp),
  ("pointlerpline", .lerp), ("equallength", .equalLength), ("linelengthsequal", .equalLength)]

/-- The names of axes. -/
def axisNames : List (String × Axis) := [
  ("leftright", .leftRight), ("horizontal", .leftRight), ("topbottom", .topBottom),
  ("vertical", .topBottom)]

/-- The names of kinds of groups. -/
def groupNames : List (String × GroupKind) := [
  ("boundary", .boundary), ("hole", .hole), ("interior", .hole)]

/-- Look a name up in a list of names; `what` says what it names. -/
def lookup {β : Type} (table : List (String × β)) (what : String) (place : Place) (value : Json) :
    Except DecodeError β :=
  match value with
  | .string name =>
    match table.find? fun pair => some pair.1 = name.string?.map plainName with
    | some (_, found) => .ok found
    | none => .error (.unknownName place what name)
  | other => .error (.notAString place what other)

/-! ### Values -/

/-- A number, if there is one. -/
def optionalNumber (place : Place) : Json → Except DecodeError (Option Float)
  | .null => .ok none
  | .float value => .ok (some value)
  | .int value =>
    match Decimal.ofInt? value with
    | some x => .ok (some x)
    | none => .error .numberTooLarge
  | other => .error (.notANumber place other)

/-- A number, or a given one when there is none. -/
def number (place : Place) (standard : Float) (value : Json) : Except DecodeError Float := do
  return (← optionalNumber place value).getD standard

/-- The whole number that a double is. -/
def wholeOfFloat? (value : Float) : Option Int :=
  match Decimal.Reading.ofFloat value with
  | .finite b =>
    if b.ratio.num % b.ratio.den = 0 then
      let size : Int := (b.ratio.num / b.ratio.den : Nat)
      some (if b.negative then -size else size)
    else none
  | .infinite _ | .nan => none

/-- A whole number, or a given one when there is none. -/
def whole (place : Place) (standard : Int) (value : Json) : Except DecodeError Int :=
  match value with
  | .null => .ok standard
  | .int n => .ok n
  | .float x =>
    match wholeOfFloat? x with
    | some n => .ok n
    | none => .error (.notAnInteger place value)
  | _ => .error (.notAnInteger place value)

/-- The feature at a position of the list of features. -/
def index (place : Place) : Json → Except DecodeError Handle
  | .int n => .ok (Handle.first n)
  | other => .error (.notAnIndex place other)

/-- A list of positions; nothing stands for the empty list. -/
def indices (place : Place) : Json → Except DecodeError (List Handle)
  | .null => .ok []
  | .array items => items.mapM (index place)
  | other => .error (.notIndices place other)

/-- An object. -/
def object (place : Place) (value : Json) : Except DecodeError Json :=
  match value with
  | .object _ => .ok value
  | other => .error (.notAnObject place other)

/-- An object, or an empty one in place of a value that does not count as present. -/
def optionalObject (place : Place) (value : Json) : Except DecodeError Json :=
  if value.isPresent then object place value else .ok (.object [])

/-! ### Records -/

/-- Is the record marked as construction? -/
def isConstruction (record : Json) : Bool :=
  match record.field "meta" with
  | .object fields => ((Json.object fields).field "construction").isPresent
  | _ => false

/-- The measures of a gear. -/
def decodeGear (place : Place) (record : Json) : Except DecodeError (Gear Float) := do
  let info ← optionalObject place (record.field "gear_info")
  let pitch ← number place 1.0 (info.field "module")
  let teeth ← whole place 20 (info.field "teeth")
  let pressureAngle ← number place 20.0 (info.field "pressure_angle")
  let offset ← number place 0.0 (info.field "offset")
  return ⟨pitch, teeth, pressureAngle, offset⟩

/-- The feature of a record. -/
def decodeFeature (place : Place) (record : Json) : Except DecodeError (Feature Float) := do
  let kind ← lookup featureNames "feature kind" place (record.field "kind")
  let gear ← if kind = .gear then some <$> decodeGear place record else pure none
  let references ← indices place (record.field "using_idx")
  let x ← number place 0.0 (record.field "x")
  let y ← number place 0.0 (record.field "y")
  let r ← number place 0.0 (record.field "r")
  return { kind, references, x, y, r, construction := isConstruction record, gear }

/-- The axis of a constraint, alone or with its direction. -/
def decodeCardinality (place : Place) (value : Json) :
    Except DecodeError (Option Cardinality) :=
  match value with
  | .null => .ok none
  | .string _ => do
    let axis ← lookup axisNames "axis" place value
    return some ⟨axis, false⟩
  | .array [axis, negated] => do
    let axis ← lookup axisNames "axis" place axis
    return some ⟨axis, negated.isPresent⟩
  | other => .error (.notACardinality place other)

/-- The two entries of a position; the origin for a value that does not count as present. -/
def decodePair (place : Place) (value : Json) : Except DecodeError (Json × Json) :=
  if value.isPresent then
    match value with
    | .array [x, y] => .ok (x, y)
    | other => .error (.notAPosition place other)
  else .ok (.null, .null)

/-- The amount of a constraint. A ratio of zero counts as not given. -/
def decodeAmount (place : Place) (kind : ConstraintKind) (value : Json) :
    Except DecodeError (Option Float) := do
  let amount ← optionalNumber place value
  return if kind.isRatio && amount.all (· == 0.0) then none else amount

/-- The constraint of a record. -/
def decodeConstraint (place : Place) (record : Json) : Except DecodeError (Constraint Float) := do
  let kind ← lookup constraintNames "constraint kind" place (record.field "kind")
  let (atX, atY) ← decodePair place (record.field "at")
  let amount ← decodeAmount place kind (record.field "amt")
  let label ← optionalObject place (record.field "ref_offset")
  let references ← indices place (record.field "feature_idx")
  let x ← number place 0.0 atX
  let y ← number place 0.0 atY
  let cardinality ← decodeCardinality place (record.field "cardinality")
  let labelX ← number place 0.0 (label.field "x")
  let labelY ← number place 35.0 (label.field "y")
  let variant ← whole place 0 (label.field "variant")
  return { kind, references, amount, position := ⟨x, y⟩, cardinality
           label := ⟨labelX, labelY, variant⟩ }

/-- A value as the name of a group. -/
def nameText : Json → Text
  | .string name => name
  | other => other.quoted

/-- The group of a record. -/
def decodeGroup (place : Place) (record : Json) : Except DecodeError (Group Float) := do
  let kind ← lookup groupNames "group type" place ((record.field? "typ").getD (.string "Boundary"))
  let members ← indices place (record.field "features_idx")
  let amount ← optionalNumber place (record.field "amt")
  let bottom ← optionalNumber place (record.field "bottom")
  return { kind, name := nameText ((record.field? "name").getD (.string "")), members, amount
           bottom }

/-! ### Tables -/

/-- The parts of a value, if it has any. -/
def parts? : Json → Option (List Json)
  | .array items => some items
  | .object fields => some (fields.map fun field => .string field.1)
  | .string text => some (text.symbols.map fun symbol => .string ⟨[symbol]⟩)
  | .null | .bool _ | .int _ | .float _ => none

/-- A part of a table: a key and a value. -/
def decodeEntry (part : Json) : Except DecodeError (Key × Json) :=
  match parts? part with
  | some [key, value] =>
    match Key.ofJson? key with
    | some key => .ok (key, value)
    | none => .error .noParts
  | some _ => .error .noPairs
  | none => .error .noParts

/-- A table: an object or a list of pairs; empty for a value that does not count as present. -/
def decodeTable (value : Json) : Except DecodeError Table :=
  if value.isPresent then
    match value with
    | .object fields => .ok (fields.map fun (key, value) => (.text key, value))
    | other =>
      match parts? other with
      | some parts => do return Table.ofPairs (← parts.mapM decodeEntry)
      | none => .error .noParts
  else .ok []

/-! ### Documents -/

/-- The records of a list; nothing stands for the empty list. -/
def records (document : Json) (key : String) : Except DecodeError (List Json) :=
  let value := document.field key
  if value.isPresent then
    match value with
    | .array items => .ok items
    | _ => .error (.notAList key)
  else .ok []

/-- Decode the records of a list in order. -/
def decodeAll {β : Type} (decode : Place → Json → Except DecodeError β) (document : Json)
    (key : String) : Except DecodeError (List β) := do
  let values ← records document key
  values.zipIdx.mapM fun (value, i) => do
    let place := Place.record key i
    decode place (← object place value)

/-- Items stored in order. -/
def store {β : Type} (items : List β) : Arena β := ⟨items.map fun item => ⟨some item, 0⟩⟩

/-- The drawing of a document. -/
def decode (value : Json) : Except DecodeError Document := do
  let document ← object .whole value
  let features ← decodeAll decodeFeature document "features"
  let constraints ← decodeAll decodeConstraint document "constraints"
  let groups ← decodeAll decodeGroup document "groups"
  let viewport ← decodeTable (document.field "viewport")
  let properties ← decodeTable (document.field "properties")
  return ⟨⟨store features, store constraints, groups⟩, viewport, properties⟩

/-- A document without a drawing. -/
def empty : Document := ⟨Sketch.empty, [], []⟩

end Document

end PlaneSketch
