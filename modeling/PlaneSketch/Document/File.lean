import PlaneSketch.Document
import PlaneSketch.Json.Reader

/-!
Drawings in the text of a file.
-/

namespace PlaneSketch.Document

/-- Why a text holds no drawing. -/
inductive LoadError
  | invalid (error : Json.SyntaxError) (text : String)
  | undecodable (error : DecodeError)

/-- The error in words, for a file of the given name; none when it has no text of its own. A
whole number of too many digits is not reported as an error of the text. -/
def LoadError.message? (file : String) : LoadError → Option String
  | invalid error text =>
    if error.complaint = .numeralTooLong then none
    else some s!"{file}: invalid JSON ({error.message text})"
  | undecodable error => error.message?

/-- A text with every line end written as a line feed. -/
def plainLines : List Char → List Char
  | '\r' :: '\n' :: rest => '\n' :: plainLines rest
  | '\r' :: rest => '\n' :: plainLines rest
  | c :: rest => c :: plainLines rest
  | [] => []

/-- The drawing in the text of a file. -/
def ofText (text : String) : Except LoadError Document :=
  let text := String.ofList (plainLines text.toList)
  match Json.parse text with
  | .error error => .error (.invalid error text)
  | .ok value =>
    match decode value with
    | .error error => .error (.undecodable error)
    | .ok document => .ok document

end PlaneSketch.Document
