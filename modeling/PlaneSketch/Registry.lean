import PlaneSketch.Assoc
import PlaneSketch.Pool

/-!
The tables behind a pool.

What a pool says of each variable is kept in four tables: the variables in order, the place of each
variable, the values by place, and the constraints that bind. Numbers come as they were written, and
are read where their values are stored. A number that cannot be read leaves a call half-way: what
was written before stays written.
-/

namespace PlaneSketch

/-- Registered variables, in tables. -/
structure Registry (α : Type) where
  /-- the variables, in order -/
  keys : List Variable
  /-- the place of each variable -/
  places : List (Variable × Nat)
  /-- the values, by place -/
  values : List α
  /-- the variables that are bound, each with its constraint -/
  bound : List (Variable × Handle)
  deriving Repr

namespace Registry

/-- What can keep a call from being done. -/
inductive Fault
  | refused (failure : Failure)
  /-- the number has no value -/
  | unreadable
  /-- the variable is registered, and has no value -/
  | valueless (unknown : Variable)
  deriving Repr, DecidableEq

variable {ν α : Type}

/-- No variable at all. -/
def empty : Registry α := ⟨[], [], [], []⟩

/-! ### Looking up -/

/-- The place of a variable. -/
def place? (registry : Registry α) (v : Variable) : Option Nat := Assoc.find? v registry.places

/-- Is the variable registered? -/
def contains (registry : Registry α) (v : Variable) : Bool := (registry.place? v).isSome

/-- The constraint that binds a variable. -/
def binding? (registry : Registry α) (v : Variable) : Option Handle :=
  Assoc.find? v registry.bound

/-- Is the variable registered and not bound? -/
def isFree (registry : Registry α) (v : Variable) : Bool :=
  registry.contains v && (registry.binding? v).isNone

/-- The variables that are not bound, in order. -/
def freeKeys (registry : Registry α) : List Variable :=
  registry.keys.filter fun v => (registry.binding? v).isNone

/-- The place of a variable, which has to be registered. -/
def index (registry : Registry α) (v : Variable) : Except Fault Nat :=
  match registry.place? v with
  | some place => .ok place
  | none => .error (.refused (.unknownVariable v))

/-- The value of a variable. -/
def value (registry : Registry α) (v : Variable) : Except Fault α := do
  let place ← registry.index v
  match registry.values[place]? with
  | some x => return x
  | none => throw (.valueless v)

/-- The position of a point. -/
def point (registry : Registry α) (h : Handle) : Except Fault (Vec2 α) := do
  let x ← registry.value ⟨h, .x⟩
  let y ← registry.value ⟨h, .y⟩
  return ⟨x, y⟩

/-! ### Changing one table -/

/-- Give a variable the next place. -/
def enter (registry : Registry α) (v : Variable) : Registry α :=
  { registry with
    places := Assoc.put v registry.keys.length registry.places
    keys := registry.keys ++ [v] }

/-- Put a value behind the others. -/
def push (registry : Registry α) (x : α) : Registry α :=
  { registry with values := registry.values ++ [x] }

/-- Put a value in the place of another. -/
def write (registry : Registry α) (place : Nat) (x : α) : Registry α :=
  { registry with values := registry.values.set place x }

/-- Bind a variable to a constraint. -/
def tie (registry : Registry α) (v : Variable) (constraint : Handle) : Registry α :=
  { registry with bound := Assoc.put v constraint registry.bound }

/-! ### Calls -/

section Reading

variable (read : ν → Option α)

/-- Register a variable, which has to be new; gives its place. It has that place before its number
is read. -/
def register (registry : Registry α) (v : Variable) (number : ν) :
    Registry α × Except Fault Nat :=
  if registry.contains v then (registry, .error (.refused (.duplicateVariable v)))
  else
    let entered := registry.enter v
    match read number with
    | some x => (entered.push x, .ok registry.keys.length)
    | none => (entered, .error .unreadable)

/-- Store a number as the value of a variable. The number is read before the variable is looked
up. -/
def store (registry : Registry α) (v : Variable) (number : ν) : Except Fault (Registry α) :=
  match read number with
  | none => .error .unreadable
  | some x =>
    match registry.place? v with
    | none => .error (.refused (.unknownVariable v))
    | some place =>
      if place < registry.values.length then .ok (registry.write place x)
      else .error (.valueless v)

/-- Give a free variable a value. -/
def setValue (registry : Registry α) (v : Variable) (number : ν) :
    Registry α × Except Fault Unit :=
  match registry.binding? v with
  | some constraint => (registry, .error (.refused (.boundVariable v constraint)))
  | none =>
    match registry.store read v number with
    | .error fault => (registry, .error fault)
    | .ok stored => (stored, .ok ())

/-- Give values to the free variables among those listed, up to the first fault; counts them on top
of `count`. -/
def seedFrom (count : Nat) (registry : Registry α) :
    List (Variable × ν) → Registry α × Except Fault Nat
  | [] => (registry, .ok count)
  | (v, number) :: numbers =>
    if registry.isFree v then
      match registry.store read v number with
      | .error fault => (registry, .error fault)
      | .ok stored => stored.seedFrom (count + 1) numbers
    else registry.seedFrom count numbers

/-- Give values to the free variables among those listed, up to the first fault; counts them. -/
def seed (registry : Registry α) (numbers : List (Variable × ν)) :
    Registry α × Except Fault Nat :=
  registry.seedFrom read 0 numbers

/-- Bind one variable to a number. -/
def bindOne (registry : Registry α) (v : Variable) (number : ν) (constraint : Handle) :
    Except Fault (Registry α) :=
  match registry.store read v number with
  | .error fault => .error fault
  | .ok stored => .ok (stored.tie v constraint)

/-- Bind a point to a position, one coordinate after the other. The first binding of a point wins:
later ones change nothing and answer false. -/
def bind (registry : Registry α) (point : Handle) (position : Vec2 ν) (constraint : Handle) :
    Registry α × Except Fault Bool :=
  if (registry.binding? ⟨point, .x⟩).isSome || (registry.binding? ⟨point, .y⟩).isSome then
    (registry, .ok false)
  else
    match registry.bindOne read ⟨point, .x⟩ position.x constraint with
    | .error fault => (registry, .error fault)
    | .ok half =>
      match half.bindOne read ⟨point, .y⟩ position.y constraint with
      | .error fault => (half, .error fault)
      | .ok whole => (whole, .ok true)

/-- Give values to variables in turn, up to the end of the shorter list or the first fault. -/
def scatter (registry : Registry α) : List Variable → List ν → Registry α × Except Fault Unit
  | v :: unknowns, number :: numbers =>
    match registry.setValue read v number with
    | (registry, .error fault) => (registry, .error fault)
    | (registry, .ok ()) => registry.scatter unknowns numbers
  | _, _ => (registry, .ok ())

/-- One thing asked of a registry, or of a pool. -/
inductive Call (ν : Type)
  | register (v : Variable) (number : ν)
  | setValue (v : Variable) (number : ν)
  | seed (numbers : List (Variable × ν))
  | bind (point : Handle) (position : Vec2 ν) (constraint : Handle)
  | scatter (unknowns : List Variable) (numbers : List ν)

/-- What a call gives back. -/
inductive Reply
  | done
  | place (index : Nat)
  | seeded (count : Nat)
  | bound (first : Bool)
  deriving Repr, DecidableEq

/-- Do what a call asks. -/
def perform (registry : Registry α) : Call ν → Registry α × Except Fault Reply
  | .register v number => (registry.register read v number).map id (·.map .place)
  | .setValue v number => (registry.setValue read v number).map id (·.map fun _ => .done)
  | .seed numbers => (registry.seed read numbers).map id (·.map .seeded)
  | .bind point position constraint =>
    (registry.bind read point position constraint).map id (·.map .bound)
  | .scatter unknowns numbers =>
    (registry.scatter read unknowns numbers).map id (·.map fun _ => .done)

/-! ### The registry of a drawing -/

/-- Register variables with their numbers, all of which have to be read. -/
def enrol (registry : Registry α) : List (Variable × ν) → Except Fault (Registry α)
  | [] => .ok registry
  | (v, number) :: rest =>
    match read number with
    | none => .error .unreadable
    | some x =>
      match registry.register some v x with
      | (_, .error fault) => .error fault
      | (registered, .ok _) => registered.enrol rest

/-- The registry of a drawing: the unknowns of each feature in order. -/
def ofSketch (sketch : Sketch ν) : Except Fault (Registry α) :=
  empty.enrol read (sketch.features.items.flatMap fun (h, feature) => Pool.unknownsOf h feature)

end Reading

end Registry

end PlaneSketch
