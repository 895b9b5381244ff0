import PlaneSketch.Diagnosis
import PlaneSketch.Proofs.Lists

/-!
What a diagnosis says.

* `tells_of_diagnose`: all that a diagnosis says about an outcome, in one structure.
* `blamed_cases`: rows are blamed only when the rank is below the number of rows, and then by a
  reduction at the bound of the rank.
* `exists_row`: a residual of a block stands in a row that the owner of the block owns.
-/

namespace PlaneSketch

/-! ### Lists of blocks of rows -/

section FlatMap

variable {σ τ υ : Type} {items : List σ} {f : σ → List τ} {g : σ → List υ}

theorem length_flatMap_eq_total (items : List σ) (f : σ → List τ) :
    (items.flatMap f).length = total (items.map fun a => (f a).length) := by
  induction items with
  | nil => rfl
  | cons a items ih => rw [List.flatMap_cons, List.length_append, ih, List.map_cons, total_cons]

/-- Two lists put together from parts of the same lengths hold the parts of an item in the same
places. -/
theorem exists_place_flatMap (same : ∀ a ∈ items, (f a).length = (g a).length) {a : σ}
    (listed : a ∈ items) {j : Nat} (inside : j < (f a).length) :
    ∃ i : Nat, (items.flatMap f)[i]? = (f a)[j]? ∧ (items.flatMap g)[i]? = (g a)[j]? := by
  induction items with
  | nil => cases listed
  | cons b items ih =>
    simp only [List.flatMap_cons]
    rcases List.mem_cons.mp listed with rfl | later
    · refine ⟨j, List.getElem?_append_left inside, List.getElem?_append_left ?_⟩
      exact (same a List.mem_cons_self) ▸ inside
    · obtain ⟨i, place, place'⟩ := ih (fun a listed => same a (List.mem_cons_of_mem b listed)) later
      refine ⟨(f b).length + i, ?_, ?_⟩
      · rw [List.getElem?_append_right (Nat.le_add_right _ _), Nat.add_sub_cancel_left, place]
      · rw [same b List.mem_cons_self, List.getElem?_append_right (Nat.le_add_right _ _),
          Nat.add_sub_cancel_left, place']

end FlatMap

variable {α : Type} [Scalar α]

/-! ### Rows -/

section Rows

variable (system : Equations α) (x : List α)

theorem Equations.length_jacobian : (system.jacobian x).length = system.rows := by
  simp only [jacobian, rows, length_flatMap_eq_total, Block.jacobian, List.length_map,
    Relation.length_gradient]
  rfl

omit [Scalar α] in
theorem Equations.length_rowOwners : system.rowOwners.length = system.rows := by
  simp only [rowOwners, rows, length_flatMap_eq_total, List.length_replicate]

omit [Scalar α] in
/-- Only a row of the system has an owner. -/
theorem Equations.lt_rows_of_owned {h : Handle} {row : Nat}
    (owned : Diagnosis.rowConstraint? system row = some h) : row < system.rows := by
  obtain ⟨owner, found, -⟩ := Option.bind_eq_some_iff.mp owned
  rw [← system.length_rowOwners]
  exact (List.getElem?_eq_some_iff.mp found).1

/-- The rows of a constraint. -/
def Equations.rowsOf (h : Handle) : List Nat :=
  (List.range system.rows).filter fun row => Diagnosis.rowConstraint? system row = some h

theorem Equations.length_of_mem_jacobian {system : Equations α} {x row : List α}
    (listed : row ∈ system.jacobian x) : row.length = system.free.length := by
  obtain ⟨block, -, listed⟩ := List.mem_flatMap.mp listed
  obtain ⟨partials, -, rfl⟩ := List.mem_map.mp listed
  exact List.length_map _

variable {system x}

/-- **Every residual stands in a row of its owner.** -/
theorem Equations.exists_row {block : Block α} (member : block ∈ system.blocks) {r : α}
    (listed : r ∈ block.residual (system.valuation x)) :
    ∃ row : Nat, (system.residuals x)[row]? = some r ∧
      Diagnosis.rowConstraint? system row = block.owner.constraint? := by
  obtain ⟨j, inside, rfl⟩ := List.getElem_of_mem listed
  have same : ∀ b ∈ system.blocks, (b.residual (system.valuation x)).length =
      (List.replicate b.rows b.owner).length := fun b _ => by
    rw [Block.residual, Relation.length_residual, List.length_replicate, Block.rows]
  obtain ⟨row, residual, owner⟩ := exists_place_flatMap same member inside
  have long : j < (List.replicate block.rows block.owner).length := (same block member) ▸ inside
  rw [List.getElem?_eq_getElem inside] at residual
  rw [List.getElem?_eq_getElem long, List.getElem_replicate] at owner
  refine ⟨row, residual, ?_⟩
  rw [Diagnosis.rowConstraint?, Equations.rowOwners, owner, Option.bind_some]

end Rows

/-! ### What is told -/

section Told

variable {methods : Methods α} {options : Options α} {pool : Pool α} {system : Equations α}
  {outcome : Outcome α} {diagnosis : Diagnosis} {dependent : List Nat} {rank : Nat}

/-- Rank and freedom are those of the Jacobian; the rows to blame make constraints redundant when
the outcome has converged, and conflicting when it has not. -/
structure Diagnosis.Tells (methods : Methods α) (options : Options α) (pool : Pool α)
    (system : Equations α) (outcome : Outcome α) (diagnosis : Diagnosis) : Prop where
  ranked : Rank.numeric? methods outcome.jacobian options.rankTolerance = some diagnosis.rank
  dof : diagnosis.dof = system.free.length - diagnosis.rank
  blamed : blamed methods options system outcome.jacobian diagnosis.rank = .ok diagnosis.dependent
  redundant : diagnosis.redundant = if outcome.converged then
    firstOccurrences (diagnosis.dependent.filterMap (rowConstraint? system)) else []
  conflicting : diagnosis.conflicting = if outcome.converged then [] else
    conflicts options pool system outcome.residuals diagnosis.dependent

theorem tells_of_diagnose
    (done : diagnose methods options pool system outcome = .ok diagnosis) :
    diagnosis.Tells methods options pool system outcome := by
  unfold diagnose at done
  dsimp only at done
  split at done
  · rename_i ranked
    obtain ⟨rank, same, rest⟩ := bind_eq_ok_iff.mp done
    obtain rfl := Except.ok.inj same
    obtain ⟨dependent, blamed, rest⟩ := bind_eq_ok_iff.mp rest
    split at rest
    · rename_i converged
      cases rest
      exact ⟨ranked, rfl, blamed, (if_pos converged).symm, (if_pos converged).symm⟩
    · rename_i converged
      cases rest
      exact ⟨ranked, rfl, blamed, (if_neg converged).symm, (if_neg converged).symm⟩
  · cases done

/-- Where there is a rank, and rows to blame are found, there is a diagnosis. -/
theorem exists_diagnose
    (ranked : Rank.numeric? methods outcome.jacobian options.rankTolerance = some rank)
    (blamed : Diagnosis.blamed methods options system outcome.jacobian rank = .ok dependent) :
    ∃ diagnosis, diagnose methods options pool system outcome = .ok diagnosis ∧
      diagnosis.rank = rank ∧ diagnosis.dependent = dependent := by
  simp only [diagnose, ranked, blamed, bind, Except.bind]
  split <;> exact ⟨_, rfl, rfl, rfl⟩

theorem Diagnosis.blamed_of_lt {jacobian : Matrix α} {bound : α} (less : rank < system.rows)
    (found : Rank.threshold? methods jacobian options.rankTolerance = some bound) :
    Diagnosis.blamed methods options system jacobian rank =
      .ok (Rank.dependentRows jacobian bound) := by
  rw [Diagnosis.blamed, if_pos less, found]

/-- Rows are blamed when the rank is below their number, and then by a reduction. -/
theorem Diagnosis.blamed_cases {jacobian : Matrix α}
    (done : Diagnosis.blamed methods options system jacobian rank = .ok dependent) :
    system.rows ≤ rank ∧ dependent = [] ∨ ∃ bound, rank < system.rows ∧
      Rank.threshold? methods jacobian options.rankTolerance = some bound ∧
      dependent = Rank.dependentRows jacobian bound := by
  unfold Diagnosis.blamed at done
  split at done
  · rename_i less
    split at done
    · rename_i bound found
      cases done
      exact .inr ⟨bound, less, found, rfl⟩
    · cases done
  · rename_i enough
    cases done
    exact .inl ⟨Nat.le_of_not_lt enough, rfl⟩

end Told

end PlaneSketch
