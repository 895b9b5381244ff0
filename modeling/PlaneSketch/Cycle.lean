import PlaneSketch.Sketch
import PlaneSketch.Total

/-!
Features that refer to each other in a circle.

The search walks from every feature along its references, keeping the path it is on. A reference
back into the path closes a circle; circles that share a feature with one reported before are
passed over. Each feature is entered at most once.
-/

namespace PlaneSketch

namespace Cycle

variable {α : Type}

/-- A feature on the path with the references that remain to be followed. -/
structure Step where
  owner : Handle
  remaining : List Handle
  deriving Repr

/-- The state of the search: the path from its end back to its start, the features that were
entered, and the circles found so far. -/
structure Search where
  path : List Step
  entered : List Handle
  cycles : List (List Handle)
  deriving Repr

namespace Search

/-- The features on the path, from its start. -/
def trail (s : Search) : List Handle := (s.path.map (·.owner)).reverse

/-- Is the feature on the path? -/
def onPath (s : Search) (h : Handle) : Bool := s.trail.contains h

/-- The part of the path from a feature on. -/
def cycleFrom (s : Search) (h : Handle) : List Handle := s.trail.dropWhile fun k => k ≠ h

/-- Note a circle, unless it meets one noted before. -/
def report (s : Search) (cycle : List Handle) : Search :=
  if s.cycles.any fun noted => noted.any cycle.contains then s
  else { s with cycles := s.cycles ++ [cycle] }

/-- Enter a feature. -/
def enter (sketch : Sketch α) (s : Search) (h : Handle) : Search :=
  let references := ((sketch.feature? h).map (·.references)).getD []
  { s with path := ⟨h, references⟩ :: s.path, entered := h :: s.entered }

/-- Steps and references left to follow on the path. -/
def work (path : List Step) : Nat := total (path.map fun step => step.remaining.length + 1)

/-- Follow all references on the path until it is empty. -/
def run (sketch : Sketch α) (s : Search) : Search :=
  match _pathIs : s.path with
  | [] => s
  | step :: outer =>
    match _restIs : step.remaining with
    | [] => run sketch { s with path := outer }
    | h :: rest =>
      let s' : Search := { s with path := ⟨step.owner, rest⟩ :: outer }
      if _live : sketch.isLive h = false then run sketch s'
      else if s.onPath h then run sketch (s'.report (s.cycleFrom h))
      else if _fresh : s.entered.contains h = false then run sketch (enter sketch s' h)
      else run sketch s'
  termination_by (sketch.features.unseen s.entered, work s.path)
  decreasing_by
    · exact Prod.Lex.right _ (by simp [_pathIs, work])
    · exact Prod.Lex.right _ (by simp [_pathIs, _restIs, work])
    · have same : (s'.report (s.cycleFrom h)).entered = s.entered := by
        unfold report; split <;> rfl
      have path : (s'.report (s.cycleFrom h)).path = ⟨step.owner, rest⟩ :: outer := by
        unfold report; split <;> rfl
      rw [same, path]
      exact Prod.Lex.right _ (by simp [_pathIs, _restIs, work])
    · exact Prod.Lex.left _ _ (Arena.unseen_cons_lt (by simpa [Sketch.isLive] using _live) _fresh)
    · exact Prod.Lex.right _ (by simp [_pathIs, _restIs, work])

/-- The search started from one more feature. -/
def visit (sketch : Sketch α) (s : Search) (h : Handle) : Search :=
  if s.entered.contains h then s else run sketch (enter sketch s h)

end Search

/-- The circles of a drawing, no two with a common feature. -/
def all (sketch : Sketch α) : List (List Handle) :=
  (sketch.features.handles.foldl (Search.visit sketch) ⟨[], [], []⟩).cycles

end Cycle

end PlaneSketch
