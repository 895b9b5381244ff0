/-!
Lists of pairs as maps that keep the order in which keys came first.
-/

namespace PlaneSketch.Assoc

variable {κ β : Type} [DecidableEq κ]

/-- The value of a key. -/
def find? (key : κ) : List (κ × β) → Option β
  | [] => none
  | pair :: rest => if pair.1 = key then some pair.2 else find? key rest

/-- Set a key: a key that is already there keeps its place and takes the new value. -/
def put (key : κ) (value : β) : List (κ × β) → List (κ × β)
  | [] => [(key, value)]
  | pair :: rest => if pair.1 = key then (key, value) :: rest else pair :: put key value rest

/-- Pairs with each key once, in the order of first occurrence, with the last value. -/
def ofPairs (pairs : List (κ × β)) : List (κ × β) :=
  pairs.foldl (fun map pair => put pair.1 pair.2 map) []

/-- Set several keys. -/
def putAll (map : List (κ × β)) (pairs : List (κ × β)) : List (κ × β) :=
  pairs.foldl (fun map pair => put pair.1 pair.2 map) map

theorem find?_put_self (key : κ) (value : β) (map : List (κ × β)) :
    find? key (put key value map) = some value := by
  induction map with
  | nil => simp [put, find?]
  | cons pair rest ih =>
    unfold put
    split
    · simp [find?]
    · rename_i other
      simp [find?, other, ih]

theorem find?_put_ne {key other : κ} (ne : other ≠ key) (value : β) (map : List (κ × β)) :
    find? other (put key value map) = find? other map := by
  induction map with
  | nil => simp [put, find?, Ne.symm ne]
  | cons pair rest ih =>
    unfold put
    split
    · rename_i same
      have ne' : pair.1 ≠ other := by rw [same]; exact Ne.symm ne
      simp [find?, Ne.symm ne, ne']
    · simp [find?, ih]

/-- A map written down key by key. -/
theorem find?_map (keys : List κ) (value : κ → β) (key : κ) :
    find? key (keys.map fun k => (k, value k)) =
      if key ∈ keys then some (value key) else none := by
  induction keys with
  | nil => rfl
  | cons first keys ih =>
    rw [List.map_cons, find?, ih]
    by_cases same : first = key
    · simp [same]
    · simp [same, Ne.symm same]

/-- Several keys set at once read as they were set, all others as before. -/
theorem find?_putAll_map (map : List (κ × β)) (keys : List κ) (value : κ → β) (key : κ) :
    find? key (putAll map (keys.map fun k => (k, value k))) =
      if key ∈ keys then some (value key) else find? key map := by
  induction keys generalizing map with
  | nil => rfl
  | cons first keys ih =>
    have step : putAll map ((first :: keys).map fun k => (k, value k)) =
        putAll (put first (value first) map) (keys.map fun k => (k, value k)) := rfl
    rw [step, ih]
    by_cases same : key = first
    · subst same
      simp [find?_put_self]
    · simp [same, find?_put_ne same]

theorem find?_eq_none_iff {key : κ} {map : List (κ × β)} :
    find? key map = none ↔ key ∉ map.map (·.1) := by
  induction map with
  | nil => simp [find?]
  | cons pair map ih =>
    by_cases same : pair.1 = key
    · simp [find?, same]
    · simp [find?, same, ih, Ne.symm same]

theorem find?_filter (keep : κ → Bool) (key : κ) (map : List (κ × β)) :
    find? key (map.filter fun pair => keep pair.1) = if keep key then find? key map else none := by
  induction map with
  | nil => simp [find?]
  | cons pair map ih =>
    by_cases same : pair.1 = key
    · subst same
      cases kept : keep pair.1 with
      | true => simp [find?, kept]
      | false => simp [kept, ih]
    · rw [List.filter_cons]
      split <;> simp [find?, same, ih]

/-! ### Each key once -/

theorem keys_put (key : κ) (value : β) (map : List (κ × β)) :
    (put key value map).map (·.1) =
      if key ∈ map.map (·.1) then map.map (·.1) else map.map (·.1) ++ [key] := by
  induction map with
  | nil => rfl
  | cons pair map ih =>
    unfold put
    by_cases same : pair.1 = key
    · simp [same]
    · rw [if_neg same, List.map_cons, ih]
      simp only [List.map_cons, List.mem_cons, Ne.symm same, false_or]
      split <;> rfl

theorem nodup_put {map : List (κ × β)} (distinct : (map.map (·.1)).Nodup) (key : κ) (value : β) :
    ((put key value map).map (·.1)).Nodup := by
  rw [keys_put]
  split
  · exact distinct
  · rename_i fresh
    refine List.nodup_append.mpr ⟨distinct, by simp, fun old listed new added => ?_⟩
    obtain rfl := List.mem_singleton.mp added
    rintro rfl
    exact fresh listed

/-- Setting keys leaves each key once. -/
theorem nodup_putAll {map : List (κ × β)} (distinct : (map.map (·.1)).Nodup)
    (pairs : List (κ × β)) : ((putAll map pairs).map (·.1)).Nodup := by
  induction pairs generalizing map with
  | nil => exact distinct
  | cons pair pairs ih => exact ih (nodup_put distinct pair.1 pair.2)

end PlaneSketch.Assoc
