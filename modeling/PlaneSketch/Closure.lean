import PlaneSketch.Pool

/-!
The unknowns of features and of everything they are built on.
-/

namespace PlaneSketch

namespace Sketch

variable {α : Type}

/-- The registered variables of a handle. -/
def variablesOf (pool : Pool α) (h : Handle) : List Variable :=
  ([⟨h, .x⟩, ⟨h, .y⟩, ⟨h, .r⟩] : List Variable).filter pool.contains

/-- Work through the waiting handles. Each live feature is looked at once; its references wait
behind the others. -/
def closureFrom (sketch : Sketch α) (pool : Pool α) (visited waiting : List Handle) :
    List Variable :=
  match waiting with
  | [] => []
  | h :: rest =>
    if _seen : visited.contains h = true then closureFrom sketch pool visited rest
    else
      match _found : sketch.feature? h with
      | none => closureFrom sketch pool (h :: visited) rest
      | some feature =>
        variablesOf pool h ++ closureFrom sketch pool (h :: visited) (rest ++ feature.references)
  termination_by (sketch.features.unseen visited, waiting.length)
  decreasing_by
    · exact Prod.Lex.right _ (by simp)
    · rcases Nat.lt_or_eq_of_le (sketch.features.unseen_cons_le visited h) with less | equal
      · exact Prod.Lex.left _ _ less
      · rw [equal]; exact Prod.Lex.right _ (by simp)
    · refine Prod.Lex.left _ _ (Arena.unseen_cons_lt ?_ (by simpa using _seen))
      unfold Arena.isLive
      unfold Sketch.feature? at _found
      simp [_found]

/-- The registered variables of the features named and of every live feature reachable from them
along references. -/
def closure (sketch : Sketch α) (pool : Pool α) (handles : List Handle) : List Variable :=
  closureFrom sketch pool [] handles

end Sketch

end PlaneSketch
