import PlaneSketch.Proofs.Arena
import PlaneSketch.Proofs.Closure
import PlaneSketch.Proofs.Cycles

/-!
How the closure of some features is found, turn by turn.

A turn takes the first waiting handle off. If it was not visited before and names a feature, its
variables are found and its references wait behind the others. Whatever refers to what, each
feature is visited once, so that every turn takes off one handle given or one reference.

* `Sweep.outcome_turn`: a turn changes nothing of what is found in the end.
* `Sweep.load_turn_lt`: with every turn there is less to do.
* `nodup_closure`: nothing is found twice.
* `exact_closure`: after no more turns than there are handles given and references, what was found
  are the registered variables of the live features that can be reached, each once.
-/

open Relation (ReflTransGen)

namespace PlaneSketch.Sketch

variable {α : Type} {sketch : Sketch α} {pool : Pool α}

/-! ### Paths between live features -/

/-- A path to a live feature leads from one live feature to the next. -/
theorem reaches_iff {h k : Handle} (live : sketch.isLive k = true) :
    sketch.Reaches [] h k ↔ ReflTransGen sketch.Refers h k := by
  constructor
  · intro path
    induction path with
    | refl _ => exact .refl
    | step _ found listed further ih =>
      exact .head ⟨⟨_, found, listed⟩, further.isLive live⟩ (ih live)
  · intro path
    induction path using ReflTransGen.head_induction_on with
    | refl => exact .refl List.not_mem_nil
    | head refers _ ih =>
      obtain ⟨⟨feature, found, listed⟩, -⟩ := refers
      exact .step List.not_mem_nil found listed ih

/-! ### Nothing is found twice -/

theorem nodup_variablesOf (pool : Pool α) (h : Handle) : (variablesOf pool h).Nodup := by
  refine List.Nodup.filter _ ?_
  simp

theorem nodup_closureFrom (visited waiting : List Handle) :
    (closureFrom sketch pool visited waiting).Nodup := by
  fun_induction closureFrom sketch pool visited waiting with
  | case1 => exact List.nodup_nil
  | case2 visited h rest old ih => exact ih
  | case3 visited h rest fresh dead ih => exact ih
  | case4 visited h rest fresh feature found ih =>
    refine List.nodup_append.mpr ⟨nodup_variablesOf pool h, ih, fun v here w later => ?_⟩
    rintro rfl
    -- what is found later belongs to a feature that was not visited yet
    obtain ⟨-, -, k, -, path⟩ := mem_closureFrom_iff _ _ |>.mp later
    exact path.finish (by simp [(mem_variablesOf_iff.mp here).1])

theorem nodup_closure (sketch : Sketch α) (pool : Pool α) (handles : List Handle) :
    (sketch.closure pool handles).Nodup :=
  nodup_closureFrom [] handles

/-! ### The search -/

/-- How far a search has come. -/
structure Sweep where
  visited : List Handle
  waiting : List Handle
  found : List Variable

/-- The number of references of the features that were not visited. -/
def owed (visited : List Handle) (items : List (Handle × Feature α)) : Nat :=
  total (items.map fun item =>
    if visited.contains item.1 then 0 else item.2.references.length)

namespace Sweep

/-- Some handles wait. -/
def start (handles : List Handle) : Sweep := ⟨[], handles, []⟩

/-- One turn of the search. -/
def turn (sketch : Sketch α) (pool : Pool α) (s : Sweep) : Sweep :=
  match s.waiting with
  | [] => s
  | h :: rest =>
    if s.visited.contains h then { s with waiting := rest }
    else
      match sketch.feature? h with
      | none => ⟨h :: s.visited, rest, s.found⟩
      | some feature =>
        ⟨h :: s.visited, rest ++ feature.references, s.found ++ variablesOf pool h⟩

/-- What will have been found in the end. -/
def outcome (sketch : Sketch α) (pool : Pool α) (s : Sweep) : List Variable :=
  s.found ++ closureFrom sketch pool s.visited s.waiting

/-- What there is to do: the handles that wait, and the references that may come to wait. -/
def load (sketch : Sketch α) (s : Sweep) : Nat :=
  s.waiting.length + owed s.visited sketch.features.items

end Sweep

section Turns

variable {visited rest : List Handle} {h : Handle} {feature : Feature α}

theorem closureFrom_of_visited (old : visited.contains h = true) :
    closureFrom sketch pool visited (h :: rest) = closureFrom sketch pool visited rest := by
  rw [closureFrom, dif_pos old]

theorem closureFrom_of_dead (fresh : ¬visited.contains h = true)
    (dead : sketch.feature? h = none) :
    closureFrom sketch pool visited (h :: rest) =
      closureFrom sketch pool (h :: visited) rest := by
  rw [closureFrom, dif_neg fresh]
  split
  · rfl
  · rename_i found
    rw [dead] at found
    cases found

theorem closureFrom_of_found (fresh : ¬visited.contains h = true)
    (found : sketch.feature? h = some feature) :
    closureFrom sketch pool visited (h :: rest) =
      variablesOf pool h ++
        closureFrom sketch pool (h :: visited) (rest ++ feature.references) := by
  rw [closureFrom, dif_neg fresh]
  split
  · rename_i dead
    rw [found] at dead
    cases dead
  · rename_i other found'
    obtain rfl : other = feature := by simpa [found'] using found
    rfl

/-- **A turn changes nothing of what is found in the end.** -/
theorem Sweep.outcome_turn (sketch : Sketch α) (pool : Pool α) (s : Sweep) :
    (s.turn sketch pool).outcome sketch pool = s.outcome sketch pool := by
  obtain ⟨visited, waiting, known⟩ := s
  cases waiting with
  | nil => rfl
  | cons h rest =>
    by_cases old : visited.contains h = true
    · simp only [turn, outcome, if_pos old, closureFrom_of_visited old]
    · cases found : sketch.feature? h with
      | none => simp only [turn, outcome, if_neg old, found, closureFrom_of_dead old found]
      | some feature =>
        simp only [turn, outcome, if_neg old, found, closureFrom_of_found old found,
          List.append_assoc]

theorem owed_cons_le (visited : List Handle) (h : Handle) (items : List (Handle × Feature α)) :
    owed (h :: visited) items ≤ owed visited items := by
  induction items with
  | nil => exact Nat.le_refl _
  | cons item items ih =>
    refine Nat.add_le_add ?_ ih
    dsimp only
    by_cases old : visited.contains item.1 = true
    · have still : (h :: visited).contains item.1 = true := by
        simp only [List.contains_cons, old, Bool.or_true]
      rw [if_pos old, if_pos still]
    · rw [if_neg old]
      split
      · exact Nat.zero_le _
      · exact Nat.le_refl _

/-- A feature that is visited owes its references no more. -/
theorem owed_cons_add_le {items : List (Handle × Feature α)} (member : (h, feature) ∈ items)
    (fresh : ¬visited.contains h = true) :
    owed (h :: visited) items + feature.references.length ≤ owed visited items := by
  obtain ⟨early, late, rfl⟩ := List.append_of_mem member
  have before := owed_cons_le visited h early
  have behind := owed_cons_le visited h late
  have own : (h :: visited).contains h = true := by simp
  simp only [owed, List.map_append, List.map_cons, total_append, total_cons, if_neg fresh,
    if_pos own] at before behind ⊢
  omega

/-- **With every turn there is less to do**, as long as anything waits. -/
theorem Sweep.load_turn_lt (sketch : Sketch α) (pool : Pool α) {s : Sweep}
    (waits : s.waiting ≠ []) :
    (s.turn sketch pool).load sketch < s.load sketch := by
  obtain ⟨visited, waiting, known⟩ := s
  cases waiting with
  | nil => exact absurd rfl waits
  | cons h rest =>
    by_cases old : visited.contains h = true
    · simp only [turn, load, if_pos old, List.length_cons]
      omega
    · cases found : sketch.feature? h with
      | none =>
        have below := owed_cons_le visited h sketch.features.items
        simp only [turn, load, if_neg old, found, List.length_cons]
        omega
      | some feature =>
        have below := owed_cons_add_le (Arena.mem_items_iff.mpr found) old
        simp only [turn, load, if_neg old, found, List.length_cons, List.length_append]
        omega

/-- **The search comes to an end**, with what it was to find. -/
theorem Sweep.exists_turns (sketch : Sketch α) (pool : Pool α) (s : Sweep) :
    ∃ turns ≤ s.load sketch, ((turn sketch pool)^[turns] s).waiting = [] ∧
      ((turn sketch pool)^[turns] s).found = s.outcome sketch pool := by
  generalize size : s.load sketch = n
  induction n using Nat.strongRecOn generalizing s with
  | ind n ih =>
    by_cases done : s.waiting = []
    · refine ⟨0, Nat.zero_le _, done, ?_⟩
      rw [outcome, done, closureFrom, List.append_nil]
      rfl
    · have less := load_turn_lt sketch pool done
      obtain ⟨turns, bound, idle, found⟩ := ih _ (size ▸ less) (s.turn sketch pool) rfl
      refine ⟨turns + 1, by omega, ?_, ?_⟩
      · rw [Function.iterate_succ_apply, idle]
      · rw [Function.iterate_succ_apply, found, outcome_turn]

end Turns

/-- **The closure is what can be reached.** Whatever the references look like, the search has
nothing left to do after at most as many turns as there are handles given and references, and has
then found the closure: the registered variables of the live features to which references lead
from a handle given, each once. -/
theorem exact_closure (sketch : Sketch α) (pool : Pool α) (handles : List Handle) :
    (∃ turns ≤ handles.length +
        total (sketch.features.items.map fun item => item.2.references.length),
      ((Sweep.turn sketch pool)^[turns] (.start handles)).waiting = [] ∧
      ((Sweep.turn sketch pool)^[turns] (.start handles)).found =
        sketch.closure pool handles) ∧
    (sketch.closure pool handles).Nodup ∧
    ∀ v, v ∈ sketch.closure pool handles ↔
      v ∈ pool.keys ∧ sketch.isLive v.handle = true ∧
        ∃ h ∈ handles, ReflTransGen sketch.Refers h v.handle := by
  refine ⟨?_, nodup_closure sketch pool handles, fun v => ?_⟩
  · exact Sweep.exists_turns sketch pool (.start handles)
  · rw [mem_closure_iff]
    refine and_congr_right fun _ => and_congr_right fun live => ?_
    exact exists_congr fun h => and_congr_right fun _ => reaches_iff live

end PlaneSketch.Sketch
