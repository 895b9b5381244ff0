import PlaneSketch.Document
import PlaneSketch.Proofs.Lists

/-!
What becomes of a document.

A document is decoded, or it is refused with a text that says what is wrong with it. Two things are
overlooked: a whole number may be too large for a coordinate, and the tables beside the drawing are
copied without a look at what they are made of. Either way the error has no text.

* `Reads`: the ways in which a reader ends, given the values that it reads as numbers and those that
  it copies as tables; `Reads.bind` and `Reads.mapM` put readers together.
* `reads_decodeFeature`, `reads_decodeConstraint`, `reads_decodeGroup`: the numbers of a record.
* `reads_decode`: the ways in which decoding ends, on every value.
-/

namespace PlaneSketch.Document

/-- A whole number that is too large for a coordinate. -/
def Oversized (value : Json) : Prop := ∃ n, value = .int n ∧ Decimal.ofInt? n = none

/-- A key and a value. -/
def Paired (part : Json) : Prop :=
  ∃ key value, parts? part = some [key, value] ∧ (Key.ofJson? key).isSome = true

/-- What can be copied as a table. -/
inductive Tabular : Json → Prop
  | absent {value : Json} : value.isPresent = false → Tabular value
  | object (fields : List (Text × Json)) : Tabular (.object fields)
  | pairs {value : Json} {parts : List Json} : parts? value = some parts →
      (∀ part ∈ parts, Paired part) → Tabular value

/-- How a reader ends, given the values that it reads as numbers and those that it copies as
tables. It is done, with nothing wrong about them; it refuses, in words; it meets a number that is
too large; or it meets a table that is none. -/
inductive Reads {β : Type} (measures tables : List Json) : Except DecodeError β → Prop
  | done {b : β} : (∀ m ∈ measures, ¬Oversized m) → (∀ t ∈ tables, Tabular t) →
      Reads measures tables (.ok b)
  | refused {error : DecodeError} {text : String} : error.message? = some text →
      Reads measures tables (.error error)
  | oversized {m : Json} : m ∈ measures → Oversized m →
      Reads measures tables (.error .numberTooLarge)
  | untabled {t : Json} {error : DecodeError} : t ∈ tables → ¬Tabular t →
      error = .noParts ∨ error = .noPairs → Reads measures tables (.error error)

namespace Reads

variable {β γ : Type} {measures more tables others : List Json} {x : Except DecodeError β}
  {f : β → Except DecodeError γ}

theorem pure (b : β) : Reads [] [] (Except.ok b : Except DecodeError β) :=
  .done (by simp) (by simp)

/-- Of the numbers, only those that are too large matter. -/
theorem of_mem_iff (reads : Reads measures tables x)
    (same : ∀ m, Oversized m → (m ∈ measures ↔ m ∈ more)) : Reads more tables x := by
  cases reads with
  | done fit tabled =>
    exact .done (fun m listed large => fit m ((same m large).mpr listed) large) tabled
  | refused worded => exact .refused worded
  | oversized listed large => exact .oversized ((same _ large).mp listed) large
  | untabled listed odd error => exact .untabled listed odd error

theorem map {g : β → γ} (reads : Reads measures tables x) : Reads measures tables (g <$> x) := by
  cases reads with
  | done fit tabled => exact .done fit tabled
  | refused worded => exact .refused worded
  | oversized listed large => exact .oversized listed large
  | untabled listed odd error => exact .untabled listed odd error

/-- **One reader after the other** reads what both read. -/
theorem bind (first : Reads measures tables x)
    (second : ∀ b, x = .ok b → Reads more others (f b)) :
    Reads (measures ++ more) (tables ++ others) (x >>= f) := by
  cases first with
  | refused worded => exact .refused worded
  | oversized listed large => exact .oversized (List.mem_append_left more listed) large
  | untabled listed odd error => exact .untabled (List.mem_append_left others listed) odd error
  | @done b fit tabled =>
    have after := second b rfl
    change Reads _ _ (f b)
    generalize f b = y at after ⊢
    cases after with
    | refused worded => exact .refused worded
    | oversized listed large => exact .oversized (List.mem_append_right measures listed) large
    | untabled listed odd error => exact .untabled (List.mem_append_right tables listed) odd error
    | done fit' tabled' =>
      exact .done (fun m listed => (List.mem_append.mp listed).elim (fit m) (fit' m))
        fun t listed => (List.mem_append.mp listed).elim (tabled t) (tabled' t)

/-- A reader after one that reads no numbers and copies no tables. -/
theorem after (first : Reads [] [] x) (second : ∀ b, x = .ok b → Reads measures tables (f b)) :
    Reads measures tables (x >>= f) :=
  first.bind second

/-- **A reader for each value of a list** reads what all of them read. -/
theorem mapM {σ : Type} {items : List σ} {g : σ → Except DecodeError β} {read : σ → List Json}
    (each : ∀ a ∈ items, Reads (read a) [] (g a)) :
    Reads (items.flatMap read) [] (items.mapM g) := by
  induction items with
  | nil => exact .pure []
  | cons a items ih =>
    rw [List.flatMap_cons, List.mapM_cons]
    refine (each a List.mem_cons_self).bind fun b _ => ?_
    refine ((ih fun c later => each c (List.mem_cons_of_mem a later)).bind
      fun rest _ => .pure (b :: rest)).of_mem_iff (by simp)

end Reads

/-! ### Values -/

section Values

variable {place : Place} {value : Json}

theorem reads_optionalNumber : Reads [value] [] (optionalNumber place value) := by
  cases value with
  | null => exact .done (by simp [Oversized]) (by simp)
  | float value => exact .done (by simp [Oversized]) (by simp)
  | int n =>
    unfold optionalNumber
    dsimp only
    split
    · rename_i x fits
      exact .done (by simp [Oversized, fits]) (by simp)
    · rename_i large
      exact .oversized List.mem_cons_self ⟨n, rfl, large⟩
  | bool _ => exact .refused rfl
  | string _ => exact .refused rfl
  | array _ => exact .refused rfl
  | object _ => exact .refused rfl

theorem reads_number {standard : Float} : Reads [value] [] (number place standard value) :=
  (reads_optionalNumber.bind fun _ _ => .pure _).of_mem_iff (by simp)

theorem reads_whole {standard : Int} : Reads [] [] (whole place standard value) := by
  unfold whole
  split
  · exact .pure _
  · exact .pure _
  · split
    · exact .pure _
    · exact .refused rfl
  · exact .refused rfl

theorem reads_lookup {β : Type} {table : List (String × β)} {what : String} :
    Reads [] [] (lookup table what place value) := by
  unfold lookup
  split
  · split
    · exact .pure _
    · exact .refused rfl
  · exact .refused rfl

theorem reads_index : Reads [] [] (index place value) := by
  unfold index
  split
  · exact .pure _
  · exact .refused rfl

theorem reads_indices : Reads [] [] (indices place value) := by
  unfold indices
  split
  · exact .pure _
  · rename_i items
    exact (Reads.mapM fun item _ => reads_index).of_mem_iff (by simp)
  · exact .refused rfl

theorem reads_object : Reads [] [] (object place value) := by
  unfold object
  split
  · exact .pure _
  · exact .refused rfl

theorem eq_of_object {document : Json} (found : object place value = .ok document) :
    document = value := by
  unfold object at found
  split at found
  · exact (Except.ok.inj found).symm
  · cases found

theorem reads_optionalObject : Reads [] [] (optionalObject place value) := by
  unfold optionalObject
  split
  · exact reads_object
  · exact .pure _

/-- A value that does not count as present has no fields. -/
theorem field_of_optionalObject {info : Json} (found : optionalObject place value = .ok info)
    (key : Text) : info.field key = value.field key := by
  unfold optionalObject at found
  split at found
  · rw [eq_of_object found]
  · rename_i absent
    obtain rfl := Except.ok.inj found
    cases value with
    | object fields =>
      obtain rfl : fields = [] := by simpa [Json.isPresent] using absent
      rfl
    | null => rfl
    | bool _ => rfl
    | int _ => rfl
    | float _ => rfl
    | string _ => rfl
    | array _ => rfl

theorem reads_decodeCardinality : Reads [] [] (decodeCardinality place value) := by
  unfold decodeCardinality
  split
  · exact .pure _
  · exact reads_lookup.after fun _ _ => .pure _
  · exact reads_lookup.after fun _ _ => .pure _
  · exact .refused rfl

theorem reads_decodePair : Reads [] [] (decodePair place value) := by
  unfold decodePair
  split
  · split
    · exact .pure _
    · exact .refused rfl
  · exact .pure _

/-- The entries of a position. -/
def entries : Json → List Json
  | .array [x, y] => [x, y]
  | _ => []

end Values

/-! ### Records -/

/-- Is the record that of a gear? -/
def namesGear (record : Json) : Bool :=
  match lookup featureNames "feature kind" .whole (record.field "kind") with
  | .ok kind => kind = .gear
  | .error _ => false

/-- What the record of a gear gives as numbers besides. -/
def gearMeasures (record : Json) : List Json :=
  let info := record.field "gear_info"
  [info.field "module", info.field "pressure_angle", info.field "offset"]

/-- What the record of a feature gives as numbers. -/
def featureMeasures (record : Json) : List Json :=
  (if namesGear record then gearMeasures record else []) ++
    [record.field "x", record.field "y", record.field "r"]

/-- What the record of a constraint gives as numbers. -/
def constraintMeasures (record : Json) : List Json :=
  let label := record.field "ref_offset"
  [record.field "amt", label.field "x", label.field "y"] ++ entries (record.field "at")

/-- What the record of a group gives as numbers. -/
def groupMeasures (record : Json) : List Json := [record.field "amt", record.field "bottom"]

section Records

variable {place : Place} {record : Json}

/-- What a name stands for does not depend on where it is found. -/
theorem lookup_of_lookup {β : Type} {table : List (String × β)} {what : String} {other : Place}
    {value : Json} {b : β} (found : lookup table what place value = .ok b) :
    lookup table what other value = .ok b := by
  unfold lookup at found ⊢
  split at found
  · split at found
    · simpa only using found
    · cases found
  · cases found

theorem reads_decodeGear : Reads (gearMeasures record) [] (decodeGear place record) := by
  refine reads_optionalObject.after fun info found => ?_
  rw [gearMeasures]
  simp only [← field_of_optionalObject found]
  exact reads_number.bind fun _ _ => reads_whole.after fun _ _ => reads_number.bind fun _ _ =>
    reads_number.bind fun _ _ => .pure _

theorem reads_decodeFeature : Reads (featureMeasures record) [] (decodeFeature place record) := by
  refine reads_lookup.after fun kind named => ?_
  have gear : namesGear record = decide (kind = .gear) := by
    rw [namesGear, lookup_of_lookup named]
  have rest : ∀ measures : Option (Gear Float),
      Reads [record.field "x", record.field "y", record.field "r"] [] (do
        let references ← indices place (record.field "using_idx")
        let x ← number place 0.0 (record.field "x")
        let y ← number place 0.0 (record.field "y")
        let r ← number place 0.0 (record.field "r")
        return Feature.mk kind references x y r (isConstruction record) measures) := fun _ =>
    reads_indices.after fun _ _ => reads_number.bind fun _ _ => reads_number.bind fun _ _ =>
      reads_number.bind fun _ _ => .pure _
  rw [featureMeasures, gear]
  by_cases isGear : kind = .gear
  · rw [if_pos isGear, if_pos (decide_eq_true isGear)]
    exact reads_decodeGear.map.bind fun measures _ => rest measures
  · rw [if_neg isGear, if_neg (by simp [isGear])]
    exact rest none

/-- A position that is no pair gives no numbers. -/
theorem entries_of_decodePair {value : Json} {pair : Json × Json}
    (found : decodePair place value = .ok pair) {m : Json} (large : Oversized m) :
    m ∈ [pair.1, pair.2] ↔ m ∈ entries value := by
  have nothing : m ≠ .null := by
    rintro rfl
    obtain ⟨n, same, -⟩ := large
    cases same
  unfold decodePair at found
  split at found
  · split at found
    · obtain rfl := Except.ok.inj found
      rfl
    · cases found
  · rename_i absent
    obtain rfl := Except.ok.inj found
    have none : entries value = [] := by
      unfold entries
      split
      · simp [Json.isPresent] at absent
      · rfl
    simp [none, nothing]

theorem reads_decodeAmount {kind : ConstraintKind} {value : Json} :
    Reads [value] [] (decodeAmount place kind value) :=
  reads_optionalNumber.bind fun _ _ => .pure _

theorem reads_decodeConstraint :
    Reads (constraintMeasures record) [] (decodeConstraint place record) := by
  refine reads_lookup.after fun kind _ => reads_decodePair.after fun pair paired => ?_
  have same : ∀ m, Oversized m → (m ∈ [record.field "amt", pair.1, pair.2,
      (record.field "ref_offset").field "x", (record.field "ref_offset").field "y"] ↔
      m ∈ constraintMeasures record) := by
    intro m large
    simp only [constraintMeasures, List.mem_append, ← entries_of_decodePair paired large,
      List.mem_cons, List.not_mem_nil, or_false]
    tauto
  refine Reads.of_mem_iff ?_ same
  refine reads_decodeAmount.bind fun amount _ => reads_optionalObject.after fun label found => ?_
  simp only [← field_of_optionalObject found]
  exact reads_indices.after fun _ _ => reads_number.bind fun _ _ => reads_number.bind fun _ _ =>
    reads_decodeCardinality.after fun _ _ => reads_number.bind fun _ _ =>
      reads_number.bind fun _ _ => reads_whole.after fun _ _ => .pure _

theorem reads_decodeGroup : Reads (groupMeasures record) [] (decodeGroup place record) :=
  reads_lookup.after fun _ _ => reads_indices.after fun _ _ => reads_optionalNumber.bind fun _ _ =>
    reads_optionalNumber.bind fun _ _ => .pure _

end Records

/-! ### Tables -/

section Tables

variable {value : Json}

theorem decodeEntry_cases (part : Json) :
    (∃ entry, decodeEntry part = .ok entry ∧ Paired part) ∨
      ∃ error, decodeEntry part = .error error ∧ ¬Paired part ∧
        (error = .noParts ∨ error = .noPairs) := by
  unfold decodeEntry Paired
  split
  · rename_i key value pair
    simp only [pair, Option.some.injEq, List.cons.injEq, and_true]
    split
    · rename_i k named
      exact .inl ⟨_, rfl, key, value, ⟨rfl, rfl⟩, by simp [named]⟩
    · rename_i unnamed
      refine .inr ⟨_, rfl, ?_, .inl rfl⟩
      rintro ⟨_, _, ⟨rfl, rfl⟩, named⟩
      simp [unnamed] at named
  · rename_i parts unpaired several
    refine .inr ⟨_, rfl, ?_, .inr rfl⟩
    rintro ⟨key, value, pair, -⟩
    exact unpaired key value (Option.some.inj (several.symm.trans pair))
  · rename_i none
    refine .inr ⟨_, rfl, ?_, .inl rfl⟩
    rintro ⟨key, value, pair, -⟩
    rw [none] at pair
    cases pair

theorem paired_of_decodeEntry {part : Json} {entry : Key × Json}
    (found : decodeEntry part = .ok entry) : Paired part := by
  rcases decodeEntry_cases part with ⟨_, -, paired⟩ | ⟨error, failed, -⟩
  · exact paired
  · rw [failed] at found
    cases found

/-- What is present, no object and made of parts is a table when each part is a pair. -/
theorem tabular_iff {parts : List Json} (present : value.isPresent = true)
    (other : ∀ fields, value ≠ .object fields) (made : parts? value = some parts) :
    Tabular value ↔ ∀ part ∈ parts, Paired part := by
  constructor
  · intro tabular
    cases tabular with
    | absent absent =>
      rw [present] at absent
      cases absent
    | object fields => exact absurd rfl (other fields)
    | pairs made' paired =>
      obtain rfl := Option.some.inj (made.symm.trans made')
      exact paired
  · exact .pairs made

theorem reads_decodeTable : Reads [] [value] (decodeTable value) := by
  unfold decodeTable
  split
  · rename_i present
    split
    · rename_i fields
      exact .done (by simp) (by simpa using .object fields)
    · rename_i other
      split
      · rename_i parts made
        have tabular_iff := tabular_iff present other made
        cases read : parts.mapM decodeEntry with
        | ok pairs =>
          refine .done (by simp) ?_
          simp only [List.mem_singleton, forall_eq, tabular_iff]
          intro part listed
          obtain ⟨entry, -, found⟩ := outcome_of_mapM_eq_ok read listed
          exact paired_of_decodeEntry found
        | error error =>
          obtain ⟨part, listed, failed⟩ := exists_of_mapM_eq_error read
          rcases decodeEntry_cases part with ⟨entry, found, -⟩ | ⟨error', failed', odd, kinds⟩
          · rw [failed] at found
            cases found
          · obtain rfl : error' = error := by simpa [failed] using failed'.symm
            exact .untabled List.mem_cons_self
              (fun tabular => odd (tabular_iff.mp tabular part listed)) kinds
      · rename_i none
        refine .untabled List.mem_cons_self ?_ (.inl rfl)
        intro tabular
        cases tabular with
        | absent absent =>
          rw [present] at absent
          cases absent
        | object fields => exact other fields rfl
        | pairs made _ =>
          rw [none] at made
          cases made
  · rename_i absent
    exact .done (by simp) (by simpa using .absent (by simpa using absent))

end Tables

/-! ### Documents -/

/-- The records in a list of a document. -/
def recordsIn (document : Json) (key : String) : List Json :=
  match document.field key with
  | .array items => items
  | _ => []

/-- What a document gives as numbers. -/
def measures (document : Json) : List Json :=
  (recordsIn document "features").flatMap featureMeasures ++
    ((recordsIn document "constraints").flatMap constraintMeasures ++
      (recordsIn document "groups").flatMap groupMeasures)

theorem reads_records {document : Json} {key : String} : Reads [] [] (records document key) := by
  unfold records
  dsimp only
  split
  · split
    · exact .pure _
    · exact .refused rfl
  · exact .pure _

theorem eq_of_records {document : Json} {key : String} {items : List Json}
    (found : records document key = .ok items) : items = recordsIn document key := by
  unfold records at found
  dsimp only at found
  split at found
  · split at found
    · rename_i listed
      rw [recordsIn, listed]
      exact (Except.ok.inj found).symm
    · cases found
  · rename_i absent
    obtain rfl := Except.ok.inj found
    unfold recordsIn
    split
    · rename_i items listed
      symm
      simpa [listed, Json.isPresent] using absent
    · rfl

theorem reads_decodeAll {β : Type} {decode : Place → Json → Except DecodeError β}
    {read : Json → List Json} (each : ∀ place record, Reads (read record) [] (decode place record))
    {document : Json} {key : String} :
    Reads ((recordsIn document key).flatMap read) [] (decodeAll decode document key) := by
  refine reads_records.after fun values found => ?_
  have listed : (recordsIn document key).flatMap read =
      values.zipIdx.flatMap fun item => read item.1 := by
    rw [← eq_of_records found]
    conv_lhs => rw [← List.zipIdx_map_fst 0 values, List.flatMap_map]
  rw [listed]
  refine Reads.mapM fun item _ => reads_object.after fun record found => ?_
  rw [eq_of_object found]
  exact each _ _

/-- **Every document is decoded or refused in words**, unless it gives a number that is too large or
has something beside the drawing that cannot be copied as a table; then it is never decoded. -/
theorem reads_decode (value : Json) :
    Reads (measures value) [value.field "viewport", value.field "properties"] (decode value) := by
  refine reads_object.after fun document found => ?_
  rw [eq_of_object found]
  have beside : ∀ drawing : Sketch Float,
      Reads [] [value.field "viewport", value.field "properties"] (do
        let viewport ← decodeTable (value.field "viewport")
        let properties ← decodeTable (value.field "properties")
        return Document.mk drawing viewport properties) := fun _ =>
    reads_decodeTable.bind fun _ _ => reads_decodeTable.bind fun _ _ => .pure _
  rw [measures, ← List.append_nil ((recordsIn value "groups").flatMap groupMeasures)]
  exact (reads_decodeAll fun _ _ => reads_decodeFeature).bind fun _ _ =>
    (reads_decodeAll fun _ _ => reads_decodeConstraint).bind fun _ _ =>
      (reads_decodeAll fun _ _ => reads_decodeGroup).bind fun _ _ => beside _

/-- A number where a table belongs is neither read nor refused in words. -/
theorem exists_unworded : ∃ value error,
    decode value = .error error ∧ error.message? = none :=
  ⟨.object [("viewport", .int 5)], .noParts, rfl, rfl⟩

end PlaneSketch.Document
