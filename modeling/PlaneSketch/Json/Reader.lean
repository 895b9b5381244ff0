import PlaneSketch.Json.Token

/-!
Reading a JSON text.

The reader walks through the tokens once and keeps the arrays and objects that are still open. It
stops at the first token that does not fit. `parse` gives the value of the whole text.
-/

namespace PlaneSketch.Json

/-- An array or object that is still open, its contents in reverse. -/
inductive Frame
  | array (items : List Json)
  | object (fields : List (Text × Json)) (key : Text)

/-- What may come next. -/
inductive State
  /-- a value, or the end of an array that was just opened -/
  | firstItem
  | value
  /-- a key, or the end of an object that was just opened -/
  | firstKey (fields : List (Text × Json))
  | key (fields : List (Text × Json))
  | colon (fields : List (Text × Json)) (key : Text)
  /-- a comma or the end of what is open, after a value -/
  | delimiter (value : Json)

/-- An error with its position in the text. -/
structure SyntaxError where
  complaint : Complaint
  position : Nat
  deriving Repr, DecidableEq

/-- What a token means where a value may stand. -/
def startValue (frames : List Frame) (placed : Placed) :
    Except SyntaxError (State × List Frame) :=
  match placed.token with
  | .literal value => .ok (.delimiter value, frames)
  | .string value => .ok (.delimiter (.string value), frames)
  | .openArray => .ok (.firstItem, frames)
  | .openObject => .ok (.firstKey [], frames)
  | .bad complaint position => .error ⟨complaint, position⟩
  | _ => .error ⟨.expectingValue, placed.position⟩

/-- What a token means where a key has to stand. -/
def startKey (frames : List Frame) (fields : List (Text × Json)) (placed : Placed) :
    Except SyntaxError (State × List Frame) :=
  match placed.token with
  | .string key => .ok (.colon fields key, frames)
  | .bad .expectingValue position => .error ⟨.expectingKey, position⟩
  | .bad .numeralTooLong position => .error ⟨.expectingKey, position⟩
  | .bad complaint position => .error ⟨complaint, position⟩
  | _ => .error ⟨.expectingKey, placed.position⟩

/-- One token further. -/
def advance (state : State) (frames : List Frame) (placed : Placed) :
    Except SyntaxError (State × List Frame) :=
  match state with
  | .firstItem =>
    match placed.token with
    | .closeArray => .ok (.delimiter (.array []), frames)
    | _ => startValue (.array [] :: frames) placed
  | .value => startValue frames placed
  | .firstKey fields =>
    match placed.token with
    | .closeObject => .ok (.delimiter (.object []), frames)
    | _ => startKey frames fields placed
  | .key fields => startKey frames fields placed
  | .colon fields key =>
    match placed.token with
    | .colon => .ok (.value, .object fields key :: frames)
    | _ => .error ⟨.expectingColon, placed.position⟩
  | .delimiter value =>
    match frames with
    | [] => .error ⟨.extraData, placed.position⟩
    | .array items :: outer =>
      match placed.token with
      | .comma => .ok (.value, .array (value :: items) :: outer)
      | .closeArray => .ok (.delimiter (.array (value :: items).reverse), outer)
      | _ => .error ⟨.expectingComma, placed.position⟩
    | .object fields key :: outer =>
      match placed.token with
      | .comma => .ok (.key ((key, value) :: fields), outer)
      | .closeObject =>
        .ok (.delimiter (.object (Assoc.ofPairs ((key, value) :: fields).reverse)), outer)
      | _ => .error ⟨.expectingComma, placed.position⟩

/-- The reader at the end of the text. -/
def close (state : State) (frames : List Frame) (position : Nat) : Except SyntaxError Json :=
  match state with
  | .firstItem | .value => .error ⟨.expectingValue, position⟩
  | .firstKey _ | .key _ => .error ⟨.expectingKey, position⟩
  | .colon _ _ => .error ⟨.expectingColon, position⟩
  | .delimiter value =>
    if frames.isEmpty then .ok value else .error ⟨.expectingComma, position⟩

/-- All tokens, then the end of the text. -/
def run (length : Nat) (state : State) (frames : List Frame) : List Placed →
    Except SyntaxError Json
  | [] => close state frames length
  | placed :: rest => do
    let (state, frames) ← advance state frames placed
    run length state frames rest

/-- The value of a JSON text. -/
def parse (text : String) : Except SyntaxError Json :=
  let cs := text.toList
  if cs.head? = some '\ufeff' then .error ⟨.byteOrderMark, 0⟩
  else run cs.length .value [] (tokens 0 cs)

/-! ### Texts of the errors -/

/-- What is wrong, in words. -/
def Complaint.message : Complaint → String
  | .expectingValue => "Expecting value"
  | .expectingKey => "Expecting property name enclosed in double quotes"
  | .expectingColon => "Expecting ':' delimiter"
  | .expectingComma => "Expecting ',' delimiter"
  | .extraData => "Extra data"
  | .unterminatedString => "Unterminated string starting at"
  | .controlCharacter => "Invalid control character at"
  | .invalidEscape => "Invalid \\escape"
  | .invalidUnicodeEscape => "Invalid \\uXXXX escape"
  | .byteOrderMark => "Unexpected UTF-8 BOM (decode using utf-8-sig)"
  | .numeralTooLong => "Exceeds the limit for whole numbers"

/-- What is wrong and where: line and column count from one, characters from zero. -/
def SyntaxError.message (error : SyntaxError) (text : String) : String :=
  let before := text.toList.take error.position
  let line := before.count '\n' + 1
  let column := (before.reverse.takeWhile (· ≠ '\n')).length + 1
  s!"{error.complaint.message}: line {line} column {column} (char {error.position})"

end PlaneSketch.Json
