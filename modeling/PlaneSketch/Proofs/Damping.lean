import Mathlib
import PlaneSketch.Outcome
import PlaneSketch.Proofs.Arithmetic
import PlaneSketch.Proofs.Success

/-!
What a descent keeps to, whatever the least-squares method answers.

A descent asks for one step after the other. What it makes of a step, it makes of any answer: it
ends, or it accepts a new position, or it refuses the step and asks again with more damping.

* `asked`, `accepted`: the positions where a descent asks for a step, and those that it moves to.
* `run_congr`: a method is asked at these positions and nowhere else.
* `damped_asked`: the damping of every step lies between its bounds.
* `lowers_accepted`: every position that is accepted has residuals that are numbers, and costs less
  than all positions before it.
* `safe_of_isUsable`: so a descent is safe, and a solve keeps to its number of steps.
-/

namespace PlaneSketch

variable {α : Type} [Scalar α]

namespace Descent

/-- What a descent makes of a step. -/
inductive Turn (α : Type)
  /-- the descent ends -/
  | stop
  /-- the step is accepted -/
  | accept (next : Position α)
  /-- the step is refused, and the next one is asked for with more damping -/
  | refuse (next : Position α)

/-- Where the next step is asked for. -/
def Turn.next? : Turn α → Option (Position α)
  | stop => none
  | accept next | refuse next => some next

/-- The position moved to. -/
def Turn.accepted? : Turn α → Option (List α)
  | accept next => some next.x
  | stop | refuse _ => none

/-- What is made of the step at a position. -/
def turn (methods : Methods α) (options : Options α) (problem : Problem α) (p : Position α) :
    Turn α :=
  match step? methods problem p with
  | none => .stop
  | some delta =>
    if isTooShort options p.x (Vector.norm delta) then .stop
    else
      let x := Vector.add p.x delta
      let residuals := problem.residuals x
      if improves (cost? residuals) p.cost then
        .accept ⟨x, residuals, cost residuals,
          Scalar.raise (p.damping * options.dampingDown) options.minDamping⟩
      else if Ordered.lt options.maxDamping (p.damping * options.dampingUp) then .stop
      else .refuse { p with damping := p.damping * options.dampingUp }

/-- Are the residuals below the target, when there is one? -/
def meets (target : Option α) (p : Position α) : Bool :=
  (target.map fun t => Ordered.lt (Vector.maxAbs p.residuals) t).getD false

/-- The positions where a descent asks for a step, each with the damping of the step. -/
def asked (methods : Methods α) (options : Options α) (problem : Problem α) (target : Option α) :
    Nat → Position α → List (Position α)
  | 0, _ => []
  | budget + 1, p =>
    if meets target p then []
    else p :: match (turn methods options problem p).next? with
      | none => []
      | some next => asked methods options problem target budget next

/-- The positions that a descent moves to, in order. -/
def accepted (methods : Methods α) (options : Options α) (problem : Problem α) (target : Option α)
    (budget : Nat) (p : Position α) : List (List α) :=
  (asked methods options problem target budget p).filterMap fun q =>
    (turn methods options problem q).accepted?

variable {methods : Methods α} {options : Options α} {problem : Problem α} {target : Option α}
  {p next : Position α}

/-! ### One step -/

/-- A position that improves on another has a cost. -/
theorem cost?_of_improves {residuals : List α} {present : α}
    (better : improves (cost? residuals) present = true) :
    Vector.isUsable residuals = true ∧ cost? residuals = some (cost residuals) ∧
      Ordered.lt (cost residuals) present = true := by
  rw [cost?] at better ⊢
  split at better
  · rename_i usable
    exact ⟨usable, if_pos usable, better⟩
  · cases better

/-- **When a step is accepted**, the residuals are usable, the cost is lower, and the damping goes
down, to its lower bound at most. -/
theorem cases_of_accept (turned : turn methods options problem p = .accept next) :
    next.residuals = problem.residuals next.x ∧ Vector.isUsable next.residuals = true ∧
      next.cost = cost next.residuals ∧ Ordered.lt next.cost p.cost = true ∧
      next.damping = Scalar.raise (p.damping * options.dampingDown) options.minDamping := by
  unfold turn at turned
  split at turned
  · cases turned
  · split at turned
    · cases turned
    · dsimp only at turned
      split at turned
      · rename_i better
        cases turned
        obtain ⟨usable, -, less⟩ := cost?_of_improves better
        exact ⟨rfl, usable, rfl, less, rfl⟩
      · split at turned
        · cases turned
        · cases turned

/-- When a step is refused, the descent stays where it is, and the damping goes up to its upper
bound at most. -/
theorem cases_of_refuse (turned : turn methods options problem p = .refuse next) :
    next = { p with damping := p.damping * options.dampingUp } ∧
      Ordered.lt options.maxDamping (p.damping * options.dampingUp) = false := by
  unfold turn at turned
  split at turned
  · cases turned
  · split at turned
    · cases turned
    · dsimp only at turned
      split at turned
      · cases turned
      · split at turned
        · cases turned
        · rename_i within
          cases turned
          exact ⟨rfl, Bool.eq_false_iff.mpr within⟩

section Run

variable {budget taken : Nat}

/-- A descent ends where there is nothing to go on to. -/
theorem run_of_stop (unmet : meets target p = false)
    (turned : (turn methods options problem p).next? = none) :
    (run methods options problem target (budget + 1) taken p).x = p.x ∧
      (run methods options problem target (budget + 1) taken p).steps ≤ taken + 1 ∧
      ((run methods options problem target (budget + 1) taken p).failure = none ∨
        step? methods problem p = none) := by
  rw [run, ← meets, if_neg (Bool.eq_false_iff.mp unmet)]
  rw [turn] at turned
  cases stepped : step? methods problem p with
  | none => exact ⟨rfl, Nat.le_succ taken, .inr rfl⟩
  | some delta =>
    rw [stepped] at turned
    dsimp only at turned ⊢
    split
    · exact ⟨rfl, le_rfl, .inl rfl⟩
    · rename_i long
      rw [if_neg long] at turned
      split at turned
      · cases turned
      · rename_i worse
        rw [if_neg worse]
        split
        · exact ⟨rfl, le_rfl, .inl rfl⟩
        · rename_i within
          rw [if_neg within] at turned
          cases turned

/-- Else it goes on from the next position. -/
theorem run_of_next (budget taken : Nat) (unmet : meets target p = false)
    (turned : (turn methods options problem p).next? = some next) :
    ∃ event, run methods options problem target (budget + 1) taken p =
      { run methods options problem target budget (taken + 1) next with
        events := event ::
          (run methods options problem target budget (taken + 1) next).events } := by
  rw [run, ← meets, if_neg (Bool.eq_false_iff.mp unmet)]
  rw [turn] at turned
  cases stepped : step? methods problem p with
  | none =>
    rw [stepped] at turned
    cases turned
  | some delta =>
    rw [stepped] at turned
    dsimp only at turned ⊢
    split at turned
    · cases turned
    · rename_i long
      rw [if_neg long]
      split at turned
      · rename_i better
        cases turned
        rw [if_pos better, (cost?_of_improves better).2.1]
        exact ⟨_, rfl⟩
      · rename_i worse
        rw [if_neg worse]
        split at turned
        · cases turned
        · rename_i within
          cases turned
          rw [if_neg within]
          exact ⟨_, rfl⟩

/-! ### All steps -/

/-- **A method is asked at the positions listed and nowhere else**: one that answers alike there
makes for the same descent. -/
theorem run_congr {methods' : Methods α}
    (alike : ∀ q ∈ asked methods options problem target budget p,
      step? methods' problem q = step? methods problem q) :
    run methods' options problem target budget taken p =
      run methods options problem target budget taken p := by
  induction budget generalizing taken p with
  | zero => rfl
  | succ budget ih =>
    rw [run, run, ← meets]
    by_cases met : meets target p = true
    · rw [if_pos met, if_pos met]
    · rw [asked, if_neg met] at alike
      rw [if_neg met, if_neg met, alike p List.mem_cons_self]
      cases stepped : step? methods problem p with
      | none => rfl
      | some delta =>
        rw [turn, stepped] at alike
        dsimp only at alike ⊢
        split
        · rfl
        · rename_i long
          rw [if_neg long] at alike
          split
          · rename_i better
            rw [if_pos better] at alike
            simp only [(cost?_of_improves better).2.1, Option.getD_some]
            rw [ih fun q later => alike q (List.mem_cons_of_mem p later)]
          · rename_i worse
            rw [if_neg worse] at alike
            split
            · rfl
            · rename_i within
              rw [if_neg within] at alike
              rw [ih fun q later => alike q (List.mem_cons_of_mem p later)]

theorem asked_of_meets (met : meets target p = true) :
    asked methods options problem target budget p = [] := by
  cases budget with
  | zero => rfl
  | succ budget => rw [asked, if_pos met]

/-- **A descent asks for as many steps as it may take**, and counts no more than it asked for. -/
theorem steps_run_le (methods : Methods α) (options : Options α) (problem : Problem α)
    (target : Option α) (budget taken : Nat) (p : Position α) :
    (asked methods options problem target budget p).length ≤ budget ∧
      (run methods options problem target budget taken p).steps ≤
        taken + (asked methods options problem target budget p).length := by
  induction budget generalizing taken p with
  | zero => exact ⟨le_rfl, le_rfl⟩
  | succ budget ih =>
    by_cases met : meets target p = true
    · rw [asked_of_meets met, run, ← meets, if_pos met]
      exact ⟨Nat.zero_le _, le_rfl⟩
    · have unmet := Bool.eq_false_iff.mpr met
      rw [asked, if_neg met]
      cases turned : (turn methods options problem p).next? with
      | none => exact ⟨Nat.le_add_left 1 budget, (run_of_stop unmet turned).2.1⟩
      | some next =>
        obtain ⟨event, goes⟩ := run_of_next budget taken unmet turned
        obtain ⟨few, counted⟩ := ih (taken + 1) next
        rw [goes]
        dsimp only [List.length_cons]
        exact ⟨Nat.succ_le_succ few, by omega⟩

/-- A descent is cut short only where its method gives no step. -/
theorem failure_run_of_asked (methods : Methods α) (options : Options α) (problem : Problem α)
    (target : Option α) (budget taken : Nat) (p : Position α) :
    (run methods options problem target budget taken p).failure = none ∨
      ∃ q ∈ asked methods options problem target budget p, step? methods problem q = none := by
  induction budget generalizing taken p with
  | zero => exact .inl rfl
  | succ budget ih =>
    by_cases met : meets target p = true
    · rw [run, ← meets, if_pos met]
      exact .inl rfl
    · have unmet := Bool.eq_false_iff.mpr met
      rw [asked, if_neg met]
      cases turned : (turn methods options problem p).next? with
      | none =>
        exact (run_of_stop unmet turned).2.2.imp_right fun failed => ⟨p, List.mem_cons_self, failed⟩
      | some next =>
        obtain ⟨event, goes⟩ := run_of_next budget taken unmet turned
        rw [goes]
        refine (ih (taken + 1) next).imp_right ?_
        rintro ⟨q, listed, failed⟩
        exact ⟨q, List.mem_cons_of_mem p listed, failed⟩

end Run

/-! ### Damping -/

/-- Between the bounds on the damping. -/
def Damped (options : Options α) (damping : α) : Prop :=
  Ordered.le options.minDamping damping = true ∧ Ordered.le damping options.maxDamping = true

/-- What a check of the settings says of the damping. -/
theorem bounds_of_isUsable (usable : options.isUsable = true) :
    Ordered.lt 0 options.minDamping = true ∧ Damped options options.initialDamping ∧
      Ordered.lt 1 options.dampingUp = true ∧ Ordered.lt 0 options.dampingDown = true ∧
      Ordered.lt options.dampingDown 1 = true := by
  simp only [Options.isUsable, Options.problems, Options.demand, List.isEmpty_iff,
    List.append_eq_nil_iff, ite_eq_left_iff, reduceCtorEq, imp_false, not_not, Bool.and_eq_true]
    at usable
  obtain ⟨⟨⟨⟨⟨⟨⟨-, ⟨positive, lower⟩, upper⟩, up⟩, down⟩, -⟩, -⟩, -⟩, -⟩ := usable
  exact ⟨positive, ⟨lower, upper⟩, up, down⟩

section Bounds

variable {damping : α} {budget : Nat}

/-- Damping that goes down stays between its bounds. -/
theorem Damped.lower (laws : Scalar.Laws α) (usable : options.isUsable = true)
    (damped : Damped options damping) :
    Damped options (Scalar.raise (damping * options.dampingDown) options.minDamping) := by
  obtain ⟨positive, -, -, down, below⟩ := bounds_of_isUsable usable
  -- the product is at most what it was, and the lower bound is taken when it is larger
  have smaller := laws.mul_le (laws.lt_of_lt_of_le positive damped.1) down below
  rw [Scalar.raise]
  split
  · exact ⟨(laws.le_self damped.1).1, laws.le_trans damped.1 damped.2⟩
  · rename_i above
    exact ⟨laws.le_of_not_lt (laws.le_self smaller).1 (laws.le_self damped.1).1
      (Bool.eq_false_iff.mpr above), laws.le_trans smaller damped.2⟩

/-- Damping that goes up and is not refused stays between its bounds. -/
theorem Damped.raise (laws : Scalar.Laws α) (usable : options.isUsable = true)
    (damped : Damped options damping)
    (within : Ordered.lt options.maxDamping (damping * options.dampingUp) = false) :
    Damped options (damping * options.dampingUp) := by
  obtain ⟨positive, -, up, -, -⟩ := bounds_of_isUsable usable
  have larger := laws.le_mul (laws.lt_of_lt_of_le positive damped.1) up
  exact ⟨laws.le_trans damped.1 larger,
    laws.le_of_not_lt (laws.le_self damped.2).2 (laws.le_self larger).2 within⟩

theorem damped_next (laws : Scalar.Laws α) (usable : options.isUsable = true)
    (damped : Damped options p.damping)
    (turned : (turn methods options problem p).next? = some next) :
    Damped options next.damping := by
  cases turn : turn methods options problem p with
  | stop =>
    rw [turn] at turned
    cases turned
  | accept accepted =>
    rw [turn] at turned
    cases turned
    rw [(cases_of_accept turn).2.2.2.2]
    exact damped.lower laws usable
  | refuse refused =>
    rw [turn] at turned
    cases turned
    obtain ⟨rfl, within⟩ := cases_of_refuse turn
    exact damped.raise laws usable within

/-- **Every step is asked for with a damping between the bounds.** -/
theorem damped_asked (laws : Scalar.Laws α) (usable : options.isUsable = true)
    (damped : Damped options p.damping) :
    ∀ q ∈ asked methods options problem target budget p, Damped options q.damping := by
  induction budget generalizing p with
  | zero => exact fun _ listed => absurd listed List.not_mem_nil
  | succ budget ih =>
    intro q listed
    rw [asked] at listed
    split at listed
    · cases listed
    · rcases List.mem_cons.mp listed with rfl | later
      · exact damped
      · cases turned : (turn methods options problem p).next? with
        | none =>
          rw [turned] at later
          cases later
        | some next =>
          rw [turned] at later
          exact ih (damped_next laws usable damped turned) q later

end Bounds

/-! ### Positions that are accepted -/

section Accepted

variable {budget taken : Nat}

theorem accepted_of_stop (unmet : meets target p = false)
    (turned : turn methods options problem p = .stop) :
    accepted methods options problem target (budget + 1) p = [] := by
  simp [accepted, asked, unmet, turned, Turn.next?, Turn.accepted?]

theorem accepted_of_accept (unmet : meets target p = false)
    (turned : turn methods options problem p = .accept next) :
    accepted methods options problem target (budget + 1) p =
      next.x :: accepted methods options problem target budget next := by
  simp [accepted, asked, unmet, turned, Turn.next?, Turn.accepted?]

theorem accepted_of_refuse (unmet : meets target p = false)
    (turned : turn methods options problem p = .refuse next) :
    accepted methods options problem target (budget + 1) p =
      accepted methods options problem target budget next := by
  simp [accepted, asked, unmet, turned, Turn.next?, Turn.accepted?]

/-- A descent ends where it starts, having accepted nothing, or at the last position that it
accepted, where the residuals are usable and cost less than `before` and than everywhere else. -/
def Ends (problem : Problem α) (before : α) (x : List α) (accepted : List (List α))
    (y : List α) : Prop :=
  (accepted = [] ∧ y = x) ∨ ∃ others, accepted = others ++ [y] ∧
    Vector.isUsable (problem.residuals y) = true ∧
    Ordered.lt (cost (problem.residuals y)) before = true ∧
    ∀ z ∈ others, Ordered.lt (cost (problem.residuals y)) (cost (problem.residuals z)) = true

/-- A step that is accepted comes before all others. -/
theorem Ends.accept (laws : Scalar.Laws α) {others : List (List α)} {y : List α}
    (turned : turn methods options problem p = .accept next)
    (ends : Ends problem next.cost next.x others y) :
    Ends problem p.cost p.x (next.x :: others) y := by
  obtain ⟨evaluated, usable, costs, less, -⟩ := cases_of_accept turned
  rw [evaluated] at usable costs
  rw [costs] at less
  rcases ends with ⟨rfl, rfl⟩ | ⟨between, rfl, usable', less', least⟩
  · exact .inr ⟨[], rfl, usable, less, fun _ listed => absurd listed List.not_mem_nil⟩
  · rw [costs] at less'
    refine .inr ⟨next.x :: between, rfl, usable', laws.lt_trans less' less, ?_⟩
    rintro z (_ | ⟨_, later⟩)
    · exact less'
    · exact least z later

/-- **A descent ends with the best of all positions that it accepts**, or where it starts. -/
theorem ends_run (laws : Scalar.Laws α) (methods : Methods α) (options : Options α)
    (problem : Problem α) (target : Option α) (budget taken : Nat) (p : Position α) :
    Ends problem p.cost p.x (accepted methods options problem target budget p)
      (run methods options problem target budget taken p).x := by
  induction budget generalizing taken p with
  | zero => exact .inl ⟨rfl, rfl⟩
  | succ budget ih =>
    by_cases met : meets target p = true
    · rw [accepted, asked_of_meets met, run, ← meets, if_pos met]
      exact .inl ⟨rfl, rfl⟩
    · have unmet := Bool.eq_false_iff.mpr met
      cases turned : turn methods options problem p with
      | stop =>
        rw [accepted_of_stop unmet turned, (run_of_stop unmet (by rw [turned]; rfl)).1]
        exact .inl ⟨rfl, rfl⟩
      | accept next =>
        obtain ⟨event, goes⟩ := run_of_next budget taken unmet (by rw [turned]; rfl)
        rw [accepted_of_accept unmet turned, goes]
        exact .accept laws turned (ih (taken + 1) next)
      | refuse next =>
        -- the position is the same, with its residuals and its cost
        obtain ⟨event, goes⟩ := run_of_next budget taken unmet (by rw [turned]; rfl)
        rw [accepted_of_refuse unmet turned, goes]
        obtain ⟨rfl, -⟩ := cases_of_refuse turned
        exact ih (taken + 1) _

end Accepted

/-- What a descent from a position keeps to. -/
structure Safe (methods : Methods α) (options : Options α) (problem : Problem α) (target : Option α)
    (budget : Nat) (p : Position α) : Prop where
  few : (asked methods options problem target budget p).length ≤ budget
  steps : (run methods options problem target budget 0 p).steps ≤ budget
  /-- no step is asked for anywhere else -/
  alike : ∀ methods' : Methods α, (∀ q ∈ asked methods options problem target budget p,
    step? methods' problem q = step? methods problem q) →
      run methods' options problem target budget 0 p = run methods options problem target budget 0 p
  unbroken : (run methods options problem target budget 0 p).failure = none ∨
    ∃ q ∈ asked methods options problem target budget p, step? methods problem q = none
  damped : ∀ q ∈ asked methods options problem target budget p,
    Ordered.le options.minDamping q.damping = true ∧ Ordered.le q.damping options.maxDamping = true
  /-- it ends where it starts, or with the best of all positions that it accepts -/
  ends : (accepted methods options problem target budget p = [] ∧
      (run methods options problem target budget 0 p).x = p.x) ∨
    ∃ others y, accepted methods options problem target budget p = others ++ [y] ∧
      (run methods options problem target budget 0 p).x = y ∧
      (∀ r ∈ problem.residuals y, Scalar.isFinite r = true ∧
        Ordered.lt (Scalar.abs r) Scalar.residualCeiling = true) ∧
      Ordered.lt (cost (problem.residuals y)) (cost (problem.residuals p.x)) = true ∧
      ∀ z ∈ others, Ordered.lt (cost (problem.residuals y)) (cost (problem.residuals z)) = true

/-- **Every descent with settings that pass the check is safe.** -/
theorem safe_start (laws : Scalar.Laws α) (usable : options.isUsable = true)
    (methods : Methods α) (problem : Problem α) (target : Option α) (budget : Nat) (x : List α) :
    Safe methods options problem target budget (start problem options.initialDamping x) := by
  obtain ⟨few, counted⟩ := steps_run_le methods options problem target budget 0
    (start problem options.initialDamping x)
  refine ⟨few, by omega, fun _ => run_congr, failure_run_of_asked _ _ _ _ _ _ _,
    damped_asked laws usable (bounds_of_isUsable usable).2.1, ?_⟩
  rcases ends_run laws methods options problem target budget 0
    (start problem options.initialDamping x) with stays | ⟨others, last, usable', less, least⟩
  · exact .inl stays
  · exact .inr ⟨others, _, last, rfl, fun r => laws.abs_lt_of_isUsable usable', less, least⟩

end Descent

/-! ### Solves -/

/-- Settings that pass the check allow a number of steps. -/
theorem Options.maxIterations_nonneg {options : Options α} (usable : options.isUsable = true) :
    0 ≤ options.maxIterations := by
  by_contra negative
  simp [isUsable, problems, demand, negative] at usable

namespace Equations

variable {methods : Methods α} {options : Options α} {system : Equations α}
  {pull : Option (Pull α)} {x : List α} {outcome : Outcome α}

/-- As many steps as a solve may take: with a pull, half of them come on top. -/
def stepLimit (options : Options α) : Option (Pull α) → Int
  | none => options.maxIterations
  | some _ => options.maxIterations + max 1 (options.maxIterations / 2)

/-- Where the descent on the hard equations alone starts: with a pull, where the descent before it
ends. When nothing is free, or there are no equations, a pull moves the start and nothing else. -/
def hardStart (methods : Methods α) (options : Options α) (system : Equations α) (x : List α) :
    Option (Pull α) → List α
  | none => x
  | some pull =>
    if system.free.isEmpty || system.rows = 0 then pull.recenter x
    else (Descent.pulled methods options system pull x).x

theorem steps_hard_le (nonneg : 0 ≤ options.maxIterations) :
    ((Descent.hard methods options system x).steps : Int) ≤ options.maxIterations := by
  have counted := Descent.steps_run_le methods options (.hard system) (some options.tolerance)
    options.maxIterations.toNat 0 (Descent.start (.hard system) options.initialDamping x)
  rw [Descent.hard]
  omega

theorem steps_pulled_le (nonneg : 0 ≤ options.maxIterations) (pull : Pull α) :
    ((Descent.pulled methods options system pull x).steps : Int) ≤
      max 1 (options.maxIterations / 2) := by
  have counted := Descent.steps_run_le methods options (.pulled system pull) none
    (max 1 (options.maxIterations.toNat / 2)) 0
    (Descent.start (.pulled system pull) options.initialDamping (pull.recenter x))
  rw [Descent.pulled]
  omega

/-- The descent on the hard equations stays, or ends at a lower cost. -/
theorem lowers_hard (laws : Scalar.Laws α) (methods : Methods α) (options : Options α)
    (system : Equations α) (x : List α) :
    (Descent.hard methods options system x).x = x ∨
      Ordered.lt (Descent.cost (system.residuals (Descent.hard methods options system x).x))
        (Descent.cost (system.residuals x)) = true := by
  rcases Descent.ends_run laws methods options (.hard system) (some options.tolerance)
    options.maxIterations.toNat 0 (Descent.start (.hard system) options.initialDamping x) with
    ⟨-, stays⟩ | ⟨-, -, -, less, -⟩
  · exact .inl stays
  · exact .inr less

/-- **A solve keeps to its number of steps**, and its last descent never raises the cost of the hard
equations, from wherever it starts. -/
theorem keeps_of_solve (laws : Scalar.Laws α) (nonneg : 0 ≤ options.maxIterations)
    (done : (system.solve methods options pull x).outcome = .ok outcome) :
    (outcome.iterations : Int) ≤ stepLimit options pull ∧
      (outcome.x = hardStart methods options system x pull ∨
        Ordered.lt (Descent.cost outcome.residuals)
          (Descent.cost (system.residuals (hardStart methods options system x pull))) = true) := by
  unfold solve at done
  split at done
  · rename_i nothing
    cases done
    cases pull with
    | none => exact ⟨nonneg, .inl rfl⟩
    | some pull =>
      refine ⟨?_, .inl (if_pos nothing).symm⟩
      simp only [outcomeAt, stepLimit]
      omega
  · rename_i something
    cases pull with
    | none =>
      obtain rfl := outcome_of_conclude done
      have counted : ((Descent.hard methods options system x).steps : Int) ≤
          options.maxIterations := steps_hard_le nonneg
      refine ⟨?_, lowers_hard laws methods options system x⟩
      simp only [outcomeAt, stepLimit]
      omega
    | some pull =>
      dsimp only at done
      split at done
      · cases done
      · obtain rfl := outcome_of_conclude done
        rw [hardStart, if_neg something]
        refine ⟨?_, lowers_hard laws methods options system _⟩
        simp only [outcomeAt, stepLimit, Nat.cast_add]
        exact (add_comm _ _).trans_le
          (add_le_add (steps_hard_le nonneg) (steps_pulled_le nonneg pull))

/-- A descent whose method answers every time is not cut short. -/
theorem failure_eq_none {problem : Descent.Problem α} {target : Option α} {budget : Nat}
    {p : Descent.Position α}
    (answers : ∀ width rows target, (methods.leastSquares? width rows target).isSome) :
    (Descent.run methods options problem target budget 0 p).failure = none := by
  rcases Descent.failure_run_of_asked methods options problem target budget 0 p with
    fine | ⟨q, -, failed⟩
  · exact fine
  · have answered := answers q.x.length
      (Descent.stepSystem (problem.jacobian q.x) q.residuals q.damping q.x.length).1
      (Descent.stepSystem (problem.jacobian q.x) q.residuals q.damping q.x.length).2
    rw [Descent.step?] at failed
    dsimp only at failed
    rw [failed] at answered
    cases answered

/-- With a method that answers every time, a solve always has an outcome. -/
theorem exists_outcome_of_answers
    (answers : ∀ width rows target, (methods.leastSquares? width rows target).isSome)
    (options : Options α) (system : Equations α) (pull : Option (Pull α)) (x : List α) :
    ∃ outcome, (system.solve methods options pull x).outcome = .ok outcome := by
  unfold solve
  split
  · exact ⟨_, rfl⟩
  · cases pull with
    | none =>
      have unbroken : (Descent.hard methods options system x).failure = none :=
        failure_eq_none answers
      simp only [conclude, unbroken]
      exact ⟨_, rfl⟩
    | some pull =>
      have joint : (Descent.pulled methods options system pull x).failure = none :=
        failure_eq_none answers
      have unbroken : (Descent.hard methods options system
          (Descent.pulled methods options system pull x).x).failure = none :=
        failure_eq_none answers
      simp only [conclude, joint, unbroken]
      exact ⟨_, rfl⟩

end Equations

/-- **A descent is safe whatever the least-squares method answers.** It asks for no more steps than
it may take, each with a damping between the bounds, and it ends where it starts or with the best of
the positions that it accepts, whose residuals are numbers below the ceiling. So a solve keeps to
its number of steps, and its descent on the hard equations alone never raises their cost. -/
theorem safe_of_isUsable (laws : Scalar.Laws α) {options : Options α}
    (usable : options.isUsable = true) (methods : Methods α) :
    (∀ problem target budget x, Descent.Safe methods options problem target budget
      (Descent.start problem options.initialDamping x)) ∧
    (∀ (system : Equations α) pull x outcome,
      (system.solve methods options pull x).outcome = .ok outcome →
        (outcome.iterations : Int) ≤ Equations.stepLimit options pull ∧
          (outcome.x = Equations.hardStart methods options system x pull ∨
            Ordered.lt (Descent.cost outcome.residuals) (Descent.cost
              (system.residuals (Equations.hardStart methods options system x pull))) = true)) ∧
    ((∀ width rows target, (methods.leastSquares? width rows target).isSome) →
      ∀ (system : Equations α) pull x, ∃ outcome,
        (system.solve methods options pull x).outcome = .ok outcome) :=
  ⟨Descent.safe_start laws usable methods,
    fun _ _ _ _ => Equations.keeps_of_solve laws (Options.maxIterations_nonneg usable),
    fun answers => Equations.exists_outcome_of_answers answers options⟩

/-! ### A circle of an undefined size -/

namespace Ring

/-- A circle whose radius has to have a size. -/
def system (size : α) : Equations α where
  blocks := [⟨.constraint ⟨0, 0⟩ .radius, .radius (.circle ⟨1, 0⟩) size⟩]
  free := [⟨⟨1, 0⟩, .r⟩]
  constants := fun _ => 0

theorem residuals_eq (size r : α) : (system size).residuals [r] = [r - size] := rfl

/-- A method that answers with the same step every time. -/
def unmoved (step : α) : Methods α where
  leastSquares? width _ _ := some (List.replicate width step)
  length_step := by
    intro width rows target d found
    cases found
    exact List.length_replicate
  singularValues? _ := none

end Ring

/-- The standard settings. -/
noncomputable def PartialReal.options : Options PartialReal := .standard Scalar.ofDecimal

theorem PartialReal.isUsable_options : PartialReal.options.isUsable = true := by
  have number (m : Nat) (e : Int) : (Scalar.ofDecimal m e : PartialReal) = of (m * 10 ^ e) := rfl
  have positive (a : ℝ) : Ordered.lt 0 (of a) = true ↔ 0 < a := lt_of
  have negative (a : ℝ) : Ordered.lt (of a) 0 = true ↔ a < 0 := lt_of
  have large (a : ℝ) : Ordered.lt 1 (of a) = true ↔ 1 < a := lt_of
  have small (a : ℝ) : Ordered.lt (of a) 1 = true ↔ a < 1 := lt_of
  norm_num [options, Options.isUsable, Options.standard, Options.problems, Options.demand, number,
    positive, negative, large, small, le_of, ← Bool.not_eq_true]

/-- From residuals that are no numbers nothing is better, and a solve stays. -/
theorem safe_of_isUsable_undefined :
    Scalar.Laws PartialReal ∧ PartialReal.options.isUsable = true ∧
    (∀ width rows target, ((Ring.unmoved (PartialReal.of 1)).leastSquares? width rows
      target).isSome) ∧
    ∃ outcome, ((Ring.system PartialReal.undefined).solve (Ring.unmoved (.of 1)) PartialReal.options
        none [.of 1]).outcome = .ok outcome ∧
      outcome.iterations ≤ 50 ∧ outcome.x = [.of 1] := by
  obtain ⟨-, keeps, answers⟩ := safe_of_isUsable Scalar.laws_partialReal
    PartialReal.isUsable_options (Ring.unmoved (PartialReal.of 1))
  obtain ⟨outcome, done⟩ := answers (fun _ _ _ => rfl) (Ring.system .undefined) none [.of 1]
  obtain ⟨few, stays | less⟩ := keeps _ _ _ _ done
  · refine ⟨Scalar.laws_partialReal, PartialReal.isUsable_options, fun _ _ _ => rfl, outcome, done,
      ?_, stays⟩
    exact Int.ofNat_le.mp few
  · obtain ⟨_, _, -, undefined, -⟩ := PartialReal.exists_of_lt less
    cases undefined

end PlaneSketch
