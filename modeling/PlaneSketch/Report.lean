import PlaneSketch.Assoc
import PlaneSketch.Diagnosis
import PlaneSketch.Flaw

/-!
Results of a solve: one report for each island, and the values that were found.
-/

namespace PlaneSketch

/-- What is reported about an island. -/
structure Report (α : Type) where
  index : Nat
  status : Status
  classification : Option Classification
  unknowns : List Variable
  constraints : List Handle
  freeVariables : Nat
  equations : Nat
  rank : Nat
  dof : Int
  iterations : Nat
  maxResidual : α
  redundant : List Handle
  conflicting : List Handle
  flaws : List (Flaw α)
  /-- some variable started from the position of an earlier solve -/
  warmStarted : Bool
  deriving Repr

/-- What a solve found. -/
structure Result (α : Type) where
  updated : List (Variable × α)
  islands : List (Report α)
  flaws : List (Flaw α)
  deriving Repr

/-- Why a result is no success. -/
inductive Verdict (α : Type)
  | flawed (flaw : Flaw α)
  /-- so many islands did not converge, the worst with this residual -/
  | unconverged (count : Nat) (worst : α)

namespace Report

variable {α : Type} [Scalar α]

/-- The report on an island that was solved. -/
def ofDiagnosis (island : Island α) (rows : Nat) (outcome : Outcome α) (d : Diagnosis)
    (warmStarted : Bool) : Report α where
  index := island.index
  status := d.status
  classification := some d.classification
  unknowns := island.members
  constraints := island.constraints
  freeVariables := island.unknowns.length
  equations := rows
  rank := d.rank
  dof := d.dof
  iterations := outcome.iterations
  maxResidual := outcome.maxResidual
  redundant := d.redundant
  conflicting := d.conflicting
  flaws := []
  warmStarted

/-- The report on an island that flaws keep from being solved. -/
def skipped (island : Island α) (flaws : List (Flaw α)) : Report α where
  index := island.index
  status := .skipped
  classification := none
  unknowns := island.members
  constraints := firstOccurrences (island.constraints ++ flaws.filterMap Flaw.constraint?)
  freeVariables := island.unknowns.length
  equations := island.rows
  rank := 0
  dof := island.unknowns.length
  iterations := 0
  maxResidual := 0
  redundant := []
  conflicting := []
  flaws
  warmStarted := false

end Report

namespace Result

variable {α : Type} [Scalar α]

/-- Did every island converge, on a drawing without flaws? -/
def success (result : Result α) : Bool :=
  result.flaws.isEmpty && result.islands.all (·.status.isConverged)

/-- The redundant constraints of all islands. -/
def redundant (result : Result α) : List Handle := result.islands.flatMap (·.redundant)

/-- The constraints in conflict of all islands. -/
def conflicting (result : Result α) : List Handle := result.islands.flatMap (·.conflicting)

/-- The report on the island of a variable. -/
def islandOf? (result : Result α) (v : Variable) : Option (Report α) :=
  result.islands.find? fun report => report.unknowns.contains v

/-- The value found for a variable. -/
def value? (result : Result α) (v : Variable) : Option α := Assoc.find? v result.updated

/-- The position found for a point. -/
def point (result : Result α) (h : Handle) : Except Failure (Vec2 α) :=
  match result.value? ⟨h, .x⟩, result.value? ⟨h, .y⟩ with
  | some x, some y => .ok ⟨x, y⟩
  | _, _ => .error (.unsolvedPoint h)

/-- The islands that did not converge. -/
def failed (result : Result α) : List (Report α) :=
  result.islands.filter fun report => report.status = .unconverged

/-- The islands left unsolved: those that did not converge and those that were skipped. -/
def unsolved (result : Result α) : List (Report α) :=
  result.islands.filter fun report => report.status = .unconverged ∨ report.status = .skipped

/-- Why the result is no success: the first flaw, or else the islands that did not converge. -/
def verdict? (result : Result α) : Option (Verdict α) :=
  match result.flaws with
  | flaw :: _ => some (.flawed flaw)
  | [] =>
    match result.failed with
    | [] => none
    | first :: others =>
      let worst := others.foldl (fun w report => Scalar.raise w report.maxResidual)
        first.maxResidual
      some (.unconverged (others.length + 1) worst)

end Result

/-- The verdict in words; `amount` writes an amount, `residual` a residual. -/
def Verdict.message {α : Type} (amount residual : α → String) : Verdict α → String
  | flawed flaw => flaw.message amount
  | unconverged count worst =>
    s!"{count} island(s) did not converge (max residual {residual worst})"

end PlaneSketch
