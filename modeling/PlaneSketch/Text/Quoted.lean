import PlaneSketch.Text.Symbols
import PlaneSketch.Text.Unprintable

/-!
Quoted text of messages: single quotes, unless the text holds a single quote and no double one.
Backslashes, the quote in use, characters without a glyph and halves of characters are escaped.
-/

namespace PlaneSketch.Text

/-- A number in base sixteen, at least `width` digits. -/
def hexadecimal (width n : Nat) : List Char :=
  let digits := Nat.toDigits 16 n
  List.replicate (width - digits.length) '0' ++ digits

/-- A character inside quotes of the given kind. -/
def quoteChar (mark : Char) (c : Char) : List Char :=
  if c = '\\' ∨ c = mark then ['\\', c]
  else if c = '\n' then ['\\', 'n']
  else if c = '\r' then ['\\', 'r']
  else if c = '\t' then ['\\', 't']
  else if isUnprintable c then
    if c.toNat < 0x100 then '\\' :: 'x' :: hexadecimal 2 c.toNat
    else if c.toNat < 0x10000 then '\\' :: 'u' :: hexadecimal 4 c.toNat
    else '\\' :: 'U' :: hexadecimal 8 c.toNat
  else [c]

/-- A symbol inside quotes of the given kind. -/
def quoteSymbol (mark : Char) : Symbol → List Char
  | .char c => quoteChar mark c
  | .half offset => '\\' :: 'u' :: hexadecimal 4 (Symbol.halfUnit offset)

/-- The kind of quote that needs the fewer escapes; single when both need them. -/
def quoteMark (text : Text) : Char :=
  if text.symbols.contains (.char '\'') && !text.symbols.contains (.char '"') then '"' else '\''

/-- A text in quotes. -/
def quoted (text : Text) : String :=
  let mark := quoteMark text
  String.ofList (mark :: text.symbols.flatMap (quoteSymbol mark) ++ [mark])

end PlaneSketch.Text
