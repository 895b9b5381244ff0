import PlaneSketch.CommandLine.Word
import PlaneSketch.Text.Numeral
import PlaneSketch.Vec

/-!
The arguments of the command line.

Words are taken in order, each option with the word after it when it needs a value. The first word
that is no option is the path. What is left over is refused at the end, after a missing path. Two
hyphens attached to an option give it nothing for a value; what that means is for each option to
say.
-/

namespace PlaneSketch.CommandLine

/-- What is given for an option. -/
inductive Given (β : Type)
  | absent
  /-- the option is given, with nothing for a value -/
  | empty
  | value (given : β)

/-- The arguments. -/
structure Arguments where
  path : Option String
  logLevel : Given String
  maxIterations : Given Int
  tolerance : Given Float
  drag : Given Int
  target : Given (Vec2 Float)
  workers : Given Int
  json : Bool
  strict : Bool
  /-- words that nothing was done with -/
  leftOver : List String

/-- Nothing given. -/
def Arguments.none : Arguments :=
  ⟨.none, .absent, .absent, .absent, .absent, .absent, .absent, false, false, []⟩

/-- Why the arguments were not read to their end. -/
inductive Stop
  | usage (error : UsageError)
  /-- help was asked for -/
  | help
  deriving Repr, DecidableEq

namespace Arguments

/-- The parts between commas; there is always one more than there are commas. -/
def parts : List Char → List (List Char)
  | [] => [[]]
  | c :: rest =>
    if c = ',' then [] :: parts rest
    else
      match parts rest with
      | [] => [[c]]
      | first :: others => (c :: first) :: others

/-- The position that is typed as two numbers with a comma between them; empty parts do not
count. -/
def position? (text : String) : Option (Vec2 Float) :=
  let stripped := (parts text.toList).map (Text.strip Text.isBlank)
  match stripped.filter (!·.isEmpty) with
  | [x, y] => do return ⟨← Text.double? (String.ofList x), ← Text.double? (String.ofList y)⟩
  | _ => .none

/-- The whole number typed for an option. -/
def whole (flag : Flag) (text : String) : Except Stop Int :=
  match Text.int? text with
  | some n => .ok n
  | .none => .error (.usage (.notAWholeNumber flag text))

/-- The number typed for an option. -/
def real (flag : Flag) (text : String) : Except Stop Float :=
  match Text.double? text with
  | some x => .ok x
  | .none => .error (.usage (.notANumber flag text))

/-- The position typed for an option. -/
def position (flag : Flag) (text : String) : Except Stop (Vec2 Float) :=
  match position? text with
  | some p => .ok p
  | .none => .error (.usage (.notAPosition flag text))

/-- What the text of a value gives an option. -/
def read {β : Type} (typed : String → Except Stop β) (text : String) : Except Stop (Given β) :=
  if text = "--" then .ok .empty else .value <$> typed text

/-- Take in the value of an option. A target without a text is as good as none. -/
def take (given : Arguments) (flag : Flag) (text : String) : Except Stop Arguments := do
  match flag with
  | .logLevel => return { given with logLevel := ← read .ok text }
  | .maxIterations => return { given with maxIterations := ← read (whole flag) text }
  | .tolerance => return { given with tolerance := ← read (real flag) text }
  | .drag => return { given with drag := ← read (whole flag) text }
  | .target =>
    if text.isEmpty then return { given with target := .absent }
    else return { given with target := ← read (position flag) text }
  | .workers => return { given with workers := ← read (whole flag) text }
  | .help | .json | .strict => return given

/-- Take in an option without a value. -/
def mark (given : Arguments) : Flag → Except Stop Arguments
  | .help => .error .help
  | .json => .ok { given with json := true }
  | .strict => .ok { given with strict := true }
  | flag => .error (.usage (.valueMissing flag))

/-- What follows `-h`. Only the same letter, which asks for help once more, may stand there. -/
def letters (text : String) : Stop :=
  let rest := text.toList.dropWhile (· = 'h')
  if text.isEmpty || !rest.isEmpty then .usage (.valueUnwanted .help (String.ofList rest))
  else .help

/-- Take in an option with something attached to it. -/
def takeAttached (given : Arguments) (flag : Flag) : Attachment → Except Stop Arguments
  | .value text =>
    if flag.takesValue then given.take flag text else .error (.usage (.valueUnwanted flag text))
  | .letters text => .error (letters text)

/-- A word of its own: the path, unless there is one already. -/
def place (given : Arguments) (text : String) : Arguments :=
  match given.path with
  | .none => { given with path := some text }
  | some _ => { given with leftOver := given.leftOver ++ [text] }

/-- Take in words in order. The word `--` is left over, unless the path stands beside it. -/
def takeAll (given : Arguments) : List Word → Except Stop Arguments
  | [] => .ok given
  | .plain text :: .dashes :: rest =>
    if given.path.isNone then takeAll (given.place text) rest
    else takeAll ({ given with leftOver := given.leftOver ++ [text, "--"] }) rest
  | .plain text :: rest => takeAll (given.place text) rest
  | .dashes :: .plain text :: rest =>
    if given.path.isNone then takeAll (given.place text) rest
    else takeAll ({ given with leftOver := given.leftOver ++ ["--", text] }) rest
  | .dashes :: rest => takeAll { given with leftOver := given.leftOver ++ ["--"] } rest
  | .unknown text :: rest => takeAll { given with leftOver := given.leftOver ++ [text] } rest
  | .option flag (some attached) :: rest => do
    takeAll (← given.takeAttached flag attached) rest
  | .option flag .none :: .plain text :: rest =>
    if flag.takesValue then do takeAll (← given.take flag text) rest
    else do takeAll (← given.mark flag) (.plain text :: rest)
  | .option flag .none :: rest => do takeAll (← given.mark flag) rest

/-- The arguments in the words of a command line. -/
def ofTexts (texts : List String) : Except Stop Arguments := do
  let words ← match Word.ofTexts texts with
    | .ok words => .ok words
    | .error error => .error (.usage error)
  takeAll Arguments.none words

end Arguments

end PlaneSketch.CommandLine
