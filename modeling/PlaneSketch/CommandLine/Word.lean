import PlaneSketch.CommandLine.UsageError
import PlaneSketch.Text.CharClass

/-!
The words of a command line, told apart.

A word that starts with a hyphen is an option: by its name, by the beginning of exactly one long
name, or with its value attached behind `=`. What looks like a negative number, holds a blank or
is a lone hyphen is no option. After a word `--` no word is an option.
-/

namespace PlaneSketch.CommandLine

/-- What is attached to an option. -/
inductive Attachment
  /-- what follows the first sign of equality -/
  | value (text : String)
  /-- what follows a name of one letter, directly or after a sign of equality -/
  | letters (text : String)
  deriving Repr, DecidableEq

/-- A word of a command line. -/
inductive Word
  | plain (text : String)
  | option (flag : Flag) (attached : Option Attachment)
  /-- what looks like an option and is none -/
  | unknown (text : String)
  /-- the word after which no word is an option -/
  | dashes
  deriving Repr, DecidableEq

namespace Word

/-- The parts before and after the first sign of equality. -/
def splitEquals? (text : String) : Option (String × String) :=
  let cs := text.toList
  if cs.contains '=' then
    some (String.ofList (cs.takeWhile (· ≠ '=')), String.ofList ((cs.dropWhile (· ≠ '=')).drop 1))
  else none

/-- Does a text begin with another? -/
def startsWith (text start : String) : Bool := start.toList.isPrefixOf text.toList

/-- The options that a word which is no full name may stand for: their names, the options, and
what is attached to them. -/
def candidates (text : String) : List (String × Flag × Option Attachment) :=
  if startsWith text "--" then
    let (start, attached) := match splitEquals? text with
      | some (start, value) => (start, some (Attachment.value value))
      | none => (text, none)
    (Flag.table.filter fun entry => startsWith entry.1 start).map fun (name, flag) =>
      (name, flag, attached)
  else
    let name := String.ofList (text.toList.take 2)
    (Flag.table.filter fun entry => entry.1 = name).map fun (name, flag) =>
      (name, flag, some (.letters (String.ofList (text.toList.drop 2))))

/-- Digits, at least one, up to the end; a line break may follow. -/
def areDigits (cs : List Char) : Bool :=
  let digits := cs.takeWhile fun c => (Text.digitValue? c).isSome
  !digits.isEmpty && (cs.drop digits.length = [] || cs.drop digits.length = ['\n'])

/-- Does the word look like a negative number: a hyphen, and digits with or without a point? -/
def isNegativeNumber (text : String) : Bool :=
  match text.toList with
  | '-' :: cs =>
    areDigits cs ||
      match cs.dropWhile fun c => (Text.digitValue? c).isSome with
      | '.' :: fraction => areDigits fraction
      | _ => false
  | _ => false

/-- A word that is no name of an option in full. -/
def ofAbbreviation (text : String) : Except UsageError Word :=
  match candidates text with
  | [(_, flag, attached)] => .ok (.option flag attached)
  | [] =>
    if isNegativeNumber text || text.contains ' ' then .ok (.plain text) else .ok (.unknown text)
  | several => .error (.ambiguous text (several.map (·.1)))

/-- What a word is, when no `--` came before it. -/
def ofText (text : String) : Except UsageError Word :=
  if !startsWith text "-" then .ok (.plain text)
  else
    match Flag.ofName? text with
    | some flag => .ok (.option flag none)
    | none =>
      if text = "-" then .ok (.plain text)
      else
        let named := do
          let (name, value) ← splitEquals? text
          let flag ← Flag.ofName? name
          let attached : Attachment := if name.length = 2 then .letters value else .value value
          return Word.option flag (some attached)
        match named with
        | some word => .ok word
        | none => ofAbbreviation text

/-- The words of a command line. -/
def ofTexts : List String → Except UsageError (List Word)
  | [] => .ok []
  | text :: rest =>
    if text = "--" then .ok (.dashes :: rest.map .plain)
    else do
      let word ← ofText text
      let words ← ofTexts rest
      return word :: words

end Word

end PlaneSketch.CommandLine
