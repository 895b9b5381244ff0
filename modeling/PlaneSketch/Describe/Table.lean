import PlaneSketch.Describe
import PlaneSketch.Number

/-!
Tables to be shown. Keys are compared by their values, and each is shown once, in the form in which
it came first and with the value that it was given last.
-/

namespace PlaneSketch.Shown

/-- The number that a value counts as: truth values are one and zero. -/
def number? : Shown → Option Number
  | number x => some (.float x)
  | whole n => some (.int n)
  | truth value => some (.int (if value then 1 else 0))
  | _ => none

mutual

/-- Can the value be a key? What can be changed cannot. -/
def isKey : Shown → Bool
  | floats _ _ | ints _ _ | others _ | map _ | list _ | block _ _ => false
  | part kind _ _ => kind ≠ "Island"
  | tuple items => areKeys items
  | handle _ | number _ | whole _ | truth _ | absent | string _ | plain _ => true

/-- Can all of some values be keys? -/
def areKeys : List Shown → Bool
  | [] => true
  | item :: rest => isKey item && areKeys rest

end

mutual

/-- Are the keys one? An undefined number is like no key, and neither are the equations of an
island. -/
def sameKey : Shown → Shown → Bool
  | handle a, handle b => a = b
  | string a, string b => a = b
  | absent, absent => true
  | tuple a, tuple b => sameKeys a b
  | a, b =>
    match a.number?, b.number? with
    | some x, some y => x.place?.isSome && x.same y
    | _, _ => false

/-- Are the keys one by one the same? -/
def sameKeys : List Shown → List Shown → Bool
  | [], [] => true
  | a :: as, b :: bs => sameKey a b && sameKeys as bs
  | _, _ => false

end

/-- Set a key. -/
def put (key value : Shown) : List (Shown × Shown) → List (Shown × Shown)
  | [] => [(key, value)]
  | pair :: rest =>
    if pair.1.sameKey key then (pair.1, value) :: rest else pair :: put key value rest

/-- The table of some pairs; none when a key cannot be one. -/
def table? (pairs : List (Shown × Shown)) : Option Shown :=
  if areKeys (pairs.map (·.1)) then
    some (map (pairs.foldl (fun table pair => put pair.1 pair.2 table) []))
  else none

end PlaneSketch.Shown
