import PlaneSketch.Failure
import PlaneSketch.Sketch

/-!
The pool: every unknown of a drawing with its present value, in the order of registration.

A variable is free until a constraint binds it. A bound variable keeps its value and its
constraint. Operations that fail half-way give the pool as they left it.

A `Registry` holds the same in four tables, and reads the numbers that it is given. What is asked
with numbers that can be read, both do alike (`Registry.Mirrors.perform`, `Registry.mirrors_run`).
-/

namespace PlaneSketch

/-- A registered variable. -/
structure Entry (α : Type) where
  key : Variable
  value : α
  binding : Option Handle
  deriving Repr

/-- Registered variables; no variable is registered twice. -/
structure Pool (α : Type) where
  entries : List (Entry α)
  distinct : (entries.map (·.key)).Nodup

namespace Pool

variable {α : Type}

/-- No variable at all. -/
def empty : Pool α := ⟨[], by simp⟩

/-- All variables, in order. -/
def keys (pool : Pool α) : List Variable := pool.entries.map (·.key)

/-- Is the variable registered? -/
def contains (pool : Pool α) (v : Variable) : Bool := pool.keys.contains v

/-- The entry of a variable. -/
def entry? (pool : Pool α) (v : Variable) : Option (Entry α) :=
  pool.entries.find? fun entry => entry.key = v

/-- The constraint that binds a variable. -/
def binding? (pool : Pool α) (v : Variable) : Option Handle :=
  (pool.entry? v).bind (·.binding)

/-- Is the variable registered and not bound? -/
def isFree (pool : Pool α) (v : Variable) : Bool :=
  match pool.entry? v with
  | some entry => entry.binding.isNone
  | none => false

/-- The variables that are not bound, in order. -/
def freeKeys (pool : Pool α) : List Variable :=
  (pool.entries.filter (·.binding.isNone)).map (·.key)

/-- The place of a variable in the order of registration. -/
def index (pool : Pool α) (v : Variable) : Except Failure Nat :=
  match pool.keys.findIdx? (· = v) with
  | some i => .ok i
  | none => .error (.unknownVariable v)

/-- The value of a variable. -/
def value (pool : Pool α) (v : Variable) : Except Failure α :=
  match pool.entry? v with
  | some entry => .ok entry.value
  | none => .error (.unknownVariable v)

/-- The position of a point. -/
def point (pool : Pool α) (h : Handle) : Except Failure (Vec2 α) := do
  let x ← pool.value ⟨h, .x⟩
  let y ← pool.value ⟨h, .y⟩
  return ⟨x, y⟩

/-! ### Changing the pool -/

/-- Add a variable behind the others; a variable that is registered already stays as it is. -/
def add (pool : Pool α) (v : Variable) (value : α) : Pool α :=
  if fresh : v ∈ pool.keys then pool
  else
    { entries := pool.entries ++ [⟨v, value, none⟩]
      distinct := by
        rw [List.map_append, List.nodup_append]
        refine ⟨pool.distinct, by simp, ?_⟩
        intro a member b single same
        simp at single
        subst same single
        exact fresh member }

/-- Register a variable, which has to be new; gives its place. -/
def register (pool : Pool α) (v : Variable) (value : α) : Pool α × Except Failure Nat :=
  if pool.contains v then (pool, .error (.duplicateVariable v))
  else (pool.add v value, .ok pool.entries.length)

/-- Change value and binding of a variable. -/
def modify (pool : Pool α) (v : Variable) (change : α × Option Handle → α × Option Handle) :
    Pool α where
  entries := pool.entries.map fun entry =>
    if entry.key = v then
      let (value, binding) := change (entry.value, entry.binding)
      ⟨entry.key, value, binding⟩
    else entry
  distinct := by
    rw [List.map_map]
    have keep : (fun entry : Entry α => entry.key) ∘ (fun entry : Entry α =>
        if entry.key = v then
          let (value, binding) := change (entry.value, entry.binding)
          ⟨entry.key, value, binding⟩
        else entry) = fun entry => entry.key := by
      funext entry
      simp only [Function.comp_apply]
      split <;> rfl
    rw [keep]
    exact pool.distinct

/-- Give a registered variable a value, bound or not. -/
def write (pool : Pool α) (v : Variable) (value : α) : Pool α :=
  pool.modify v fun (_, binding) => (value, binding)

/-- Give a free variable a value. -/
def setValue (pool : Pool α) (v : Variable) (value : α) : Pool α × Except Failure Unit :=
  match pool.binding? v with
  | some constraint => (pool, .error (.boundVariable v constraint))
  | none =>
    if pool.contains v then (pool.write v value, .ok ())
    else (pool, .error (.unknownVariable v))

/-- Give values to the free variables among those listed; counts them. -/
def seed (pool : Pool α) (values : List (Variable × α)) : Pool α × Nat :=
  values.foldl (fun (pool, count) (v, value) =>
    if pool.isFree v then (pool.write v value, count + 1) else (pool, count)) (pool, 0)

/-- Bind one variable. -/
def bindOne (pool : Pool α) (v : Variable) (value : α) (constraint : Handle) :
    Pool α × Except Failure Unit :=
  if pool.contains v then (pool.modify v fun _ => (value, some constraint), .ok ())
  else (pool, .error (.unknownVariable v))

/-- Bind a point to a position. The first binding of a point wins: later ones change nothing and
answer false. -/
def bind (pool : Pool α) (point : Handle) (position : Vec2 α) (constraint : Handle) :
    Pool α × Except Failure Bool :=
  if (pool.binding? ⟨point, .x⟩).isSome || (pool.binding? ⟨point, .y⟩).isSome then
    (pool, .ok false)
  else
    match pool.bindOne ⟨point, .x⟩ position.x constraint with
    | (pool, .error failure) => (pool, .error failure)
    | (pool, .ok ()) =>
      let (pool, outcome) := pool.bindOne ⟨point, .y⟩ position.y constraint
      (pool, outcome.map fun _ => true)

/-- Give values to variables in turn, up to the end of the shorter list or the first failure. -/
def scatter (pool : Pool α) : List Variable → List α → Pool α × Except Failure Unit
  | v :: unknowns, value :: values =>
    match pool.setValue v value with
    | (pool, .error failure) => (pool, .error failure)
    | (pool, .ok ()) => pool.scatter unknowns values
  | _, _ => (pool, .ok ())

/-- The unknowns of a feature with their values in the drawing. -/
def unknownsOf (h : Handle) (feature : Feature α) : List (Variable × α) :=
  feature.kind.components.map fun component => (⟨h, component⟩, feature.value component)

/-- The pool of a drawing: the unknowns of each feature in order. -/
def ofSketch (sketch : Sketch α) : Pool α :=
  (sketch.features.items.flatMap fun (h, feature) => unknownsOf h feature).foldl
    (fun pool (v, value) => pool.add v value) empty

end Pool

end PlaneSketch
