import PlaneSketch.Text.Quoted

/-!
Files as the command line meets them.
-/

namespace PlaneSketch.CommandLine

/-- Why a file cannot be read. -/
inductive Obstacle
  | missing | denied | notADirectory | isDirectory | nameTooLong
  deriving Repr, DecidableEq

namespace Obstacle

/-- The number of an obstacle. -/
def number : Obstacle → Nat
  | missing => 2
  | denied => 13
  | notADirectory => 20
  | isDirectory => 21
  | nameTooLong => 36

/-- The obstacle in words. -/
def words : Obstacle → String
  | missing => "No such file or directory"
  | denied => "Permission denied"
  | notADirectory => "Not a directory"
  | isDirectory => "Is a directory"
  | nameTooLong => "File name too long"

/-- The message for a file. -/
def message (obstacle : Obstacle) (path : String) : String :=
  s!"[Errno {obstacle.number}] {obstacle.words}: {Text.quoted path}"

end Obstacle

/-- What is found in a file. -/
inductive Content
  | text (text : String)
  /-- bytes that are not the encoding of a text -/
  | bytes
  | unreadable (obstacle : Obstacle)
  deriving Repr, DecidableEq

/-- The names in a path, those that mean nothing left out. -/
def pathNames (path : String) : List String :=
  (path.splitOn "/").filter fun name => name ≠ "" ∧ name ≠ "."

/-- The start of a path from the top; two slashes, but not more, are kept. -/
def pathRoot (path : String) : String :=
  match (path.toList.takeWhile (· = '/')).length with
  | 0 => ""
  | 2 => "//"
  | _ => "/"

/-- A path without what means nothing in it. -/
def plainPath (path : String) : String :=
  let plain := pathRoot path ++ String.intercalate "/" (pathNames path)
  if plain.isEmpty then "." else plain

end PlaneSketch.CommandLine
