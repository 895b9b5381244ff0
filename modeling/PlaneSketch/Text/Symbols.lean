/-!
Texts as files spell them.

A file may name one half of a character that is written as two units. Such a half stands in a text
like a character does, but no string holds it. The text of a string reads back as that string.
-/

namespace PlaneSketch

/-- A character, or one half of a character that is written as two units. -/
inductive Symbol
  | char (c : Char)
  /-- the unit `0xd800 + offset` -/
  | half (offset : Fin 0x800)
  deriving Repr, DecidableEq

namespace Symbol

/-- The symbol of a single unit. -/
def ofUnit (unit : Nat) : Symbol :=
  if h : 0xd800 ≤ unit ∧ unit < 0xe000 then half ⟨unit - 0xd800, by omega⟩
  else char (Char.ofNat unit)

/-- The unit of a half. -/
def halfUnit (offset : Fin 0x800) : Nat := 0xd800 + offset

/-- The character, if it is one. -/
def char? : Symbol → Option Char
  | char c => some c
  | half _ => none

end Symbol

/-- A text: its symbols in order. -/
structure Text where
  symbols : List Symbol
  deriving Repr, DecidableEq, Inhabited

namespace Text

/-- The text of a string. -/
def ofString (s : String) : Text := ⟨s.toList.map .char⟩

instance : Coe String Text := ⟨ofString⟩

/-- The string of a text without halves. -/
def string? (text : Text) : Option String := (text.symbols.mapM Symbol.char?).map String.ofList

/-- The text as a string, with a replacement character for each half. -/
def plain (text : Text) : String :=
  String.ofList (text.symbols.map fun symbol => symbol.char?.getD '\ufffd')

/-- Is there nothing in the text? -/
def isEmpty (text : Text) : Bool := text.symbols.isEmpty

theorem string?_ofString (s : String) : (ofString s).string? = some s := by
  have read : ∀ cs : List Char, (cs.map Symbol.char).mapM Symbol.char? = some cs := by
    intro cs
    induction cs with
    | nil => rfl
    | cons c rest ih => simp [Symbol.char?, ih]
  simp [ofString, string?, read]

end Text

end PlaneSketch
