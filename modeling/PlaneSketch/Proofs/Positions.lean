import Mathlib
import PlaneSketch.Proofs.Arena
import PlaneSketch.Proofs.Decoding
import PlaneSketch.Proofs.Verdicts

/-!
What the positions in a document stand for.

The records of a document refer to features by their positions, and a position is stored as it is
found. It names the feature of the record there. A position before the first record or behind the
last one names nothing, and validation finds it in whatever record it stands, because the checks of
the owner let nothing pass that is not live.

* `indices_eq_ok_iff`: a field that is accepted lists positions, each of which becomes a handle.
* `Keeps`: an arena that holds the records of a list, one behind the other.
* `exists_featureFlaw_of_dead`, `exists_constraintFlaw_of_dead`: a reference to nothing is a flaw of
  its owner.
* `mirrors_of_decode`: what every document that is decoded stands for.
-/

namespace PlaneSketch

/-! ### Items stored in order -/

section Stored

variable {β : Type} {items : List β}

theorem itemsFrom_filled (start : Nat) :
    (Arena.itemsFrom start (items.map fun item => (⟨some item, 0⟩ : Slot β))).map (·.1) =
      (List.range' start items.length).map fun i : Nat => Handle.first i := by
  induction items generalizing start with
  | nil => rfl
  | cons item items ih =>
    rw [List.map_cons, Arena.itemsFrom, List.map_cons, ih, List.length_cons, List.range'_succ]
    rfl

theorem handles_store : (Document.store items).handles =
    (List.range items.length).map fun i : Nat => Handle.first i := by
  rw [List.range_eq_range']
  exact itemsFrom_filled 0

theorem get?_store (k : Nat) : (Document.store items).get? (Handle.first k) = items[k]? := by
  have nonneg : ¬(k : Int) < 0 := by omega
  simp only [Arena.get?, Arena.slot?, Document.store, Handle.first, nonneg, if_false,
    Int.toNat_natCast, List.getElem?_map]
  cases items[k]? with
  | none => rfl
  | some item => rfl

/-- Nothing is stored before the first place or behind the last one. -/
theorem get?_store_of_outside {i : Int} (outside : i < 0 ∨ (items.length : Int) ≤ i) :
    (Document.store items).get? (Handle.first i) = none := by
  rcases outside with before | behind
  · simp [Arena.get?, Arena.slot?, Handle.first, before]
  · have within : ((Document.store items).slots.length : Int) ≤ (Handle.first i).index := by
      rwa [Document.store, List.length_map]
    have dead := Arena.isLive_eq_false_of_length_le within
    exact Option.isNone_iff_eq_none.mp (by simpa [Arena.isLive] using dead)

end Stored

namespace Document

/-! ### Positions -/

/-- The value lists these positions; nothing stands for none. -/
inductive Lists : Json → List Int → Prop
  | nothing : Lists .null []
  | array (positions : List Int) : Lists (.array (positions.map .int)) positions

section Positions

variable {place : Place} {value : Json} {handles : List Handle}

theorem index_eq_ok_iff {h : Handle} :
    index place value = .ok h ↔ ∃ i, value = .int i ∧ h = Handle.first i := by
  cases value <;> simp [index, eq_comm]

/-- **A field that is accepted lists positions**, each of which becomes a handle. -/
theorem indices_eq_ok_iff : indices place value = .ok handles ↔
    ∃ positions, Lists value positions ∧ handles = positions.map Handle.first := by
  constructor
  · intro found
    unfold indices at found
    split at found
    · obtain rfl := Except.ok.inj found
      exact ⟨[], .nothing, rfl⟩
    · rename_i items
      have read := mapM_eq_ok_iff.mp found
      clear found
      induction read with
      | nil => exact ⟨[], .array [], rfl⟩
      | @cons item h items handles first _ ih =>
        obtain ⟨i, rfl, rfl⟩ := index_eq_ok_iff.mp first
        obtain ⟨positions, listed, rfl⟩ := ih
        cases listed with
        | array positions => exact ⟨i :: positions, .array (i :: positions), rfl⟩
    · cases found
  · rintro ⟨positions, listed, rfl⟩
    cases listed with
    | nothing => rfl
    | array positions =>
      refine mapM_eq_ok_iff.mpr ?_
      rw [List.forall₂_map_left_iff, List.forall₂_map_right_iff]
      exact List.forall₂_same.mpr fun i _ => rfl

end Positions

/-! ### Records -/

section Records

variable {β : Type} {decode : Place → Json → Except DecodeError β} {references : β → List Handle}
  {value : Json} {key field : String} {items : List β}

/-- What the records of a list are stored as: the arena holds what each record stands for under the
position of the record and nothing else, and the positions that a record lists in one of its fields
are its references. -/
structure Keeps (decode : Place → Json → Except DecodeError β) (references : β → List Handle)
    (field : String) (value : Json) (key : String) (arena : Arena β) : Prop where
  handles : arena.handles =
    (List.range (recordsIn value key).length).map fun i : Nat => Handle.first i
  item : ∀ (k : Nat) record, (recordsIn value key)[k]? = some record →
    ∃ item positions, decode (.record key k) record = .ok item ∧
      arena.get? (Handle.first k) = some item ∧
      Lists (record.field field) positions ∧ references item = positions.map Handle.first
  /-- positions are not counted from the end -/
  vacant : ∀ i : Int, i < 0 ∨ ((recordsIn value key).length : Int) ≤ i →
    arena.get? (Handle.first i) = none

/-- The records of a list are decoded one by one, each at its place. -/
theorem forall₂_of_decodeAll (decoded : decodeAll decode value key = .ok items) :
    List.Forall₂ (fun (record : Json × Nat) item =>
      decode (.record key record.2) record.1 = .ok item) (recordsIn value key).zipIdx items := by
  obtain ⟨records, found, each⟩ := bind_eq_ok_iff.mp decoded
  rw [← eq_of_records found]
  refine (mapM_eq_ok_iff.mp each).imp fun record item read => ?_
  obtain ⟨fields, same, made⟩ := bind_eq_ok_iff.mp read
  rw [eq_of_object same] at made
  exact made

/-- **Records that are decoded are kept in order.** -/
theorem keeps_store (decoded : decodeAll decode value key = .ok items)
    (refers : ∀ place record item, decode place record = .ok item →
      indices place (record.field field) = .ok (references item)) :
    Keeps decode references field value key (store items) := by
  have each := forall₂_of_decodeAll decoded
  have count : items.length = (recordsIn value key).length := by
    rw [← each.length_eq, List.length_zipIdx]
  constructor
  case handles => rw [handles_store, count]
  case item =>
    intro k record listed
    have numbered : (recordsIn value key).zipIdx[k]? = some (record, k) := by
      simp [List.getElem?_zipIdx, listed]
    obtain ⟨inside, there⟩ := List.getElem?_eq_some_iff.mp numbered
    have inside' : k < items.length := by simpa [count] using inside
    have made := each.get inside inside'
    rw [List.get_eq_getElem, there] at made
    obtain ⟨positions, lists, same⟩ := indices_eq_ok_iff.mp (refers _ _ _ made)
    have found := (get?_store k).trans (List.getElem?_eq_getElem inside')
    exact ⟨items[k], positions, made, found, lists, same⟩
  case vacant =>
    intro i outside
    exact get?_store_of_outside (count ▸ outside)

theorem indices_of_decodeFeature {place : Place} {record : Json} {feature : Feature Float}
    (decoded : decodeFeature place record = .ok feature) :
    indices place (record.field "using_idx") = .ok feature.references := by
  obtain ⟨kind, -, decoded⟩ := bind_eq_ok_iff.mp decoded
  have rest (measures : Option (Gear Float)) (decoded : (do
      let references ← indices place (record.field "using_idx")
      let x ← number place 0.0 (record.field "x")
      let y ← number place 0.0 (record.field "y")
      let r ← number place 0.0 (record.field "r")
      return Feature.mk kind references x y r (isConstruction record) measures) = .ok feature) :
      indices place (record.field "using_idx") = .ok feature.references := by
    obtain ⟨references, found, decoded⟩ := bind_eq_ok_iff.mp decoded
    obtain ⟨x, -, decoded⟩ := bind_eq_ok_iff.mp decoded
    obtain ⟨y, -, decoded⟩ := bind_eq_ok_iff.mp decoded
    obtain ⟨r, -, decoded⟩ := bind_eq_ok_iff.mp decoded
    obtain rfl := Except.ok.inj decoded
    exact found
  by_cases isGear : kind = .gear
  · rw [if_pos isGear] at decoded
    obtain ⟨measures, -, decoded⟩ := bind_eq_ok_iff.mp decoded
    exact rest measures decoded
  · rw [if_neg isGear] at decoded
    exact rest none decoded

theorem indices_of_decodeConstraint {place : Place} {record : Json} {constraint : Constraint Float}
    (decoded : decodeConstraint place record = .ok constraint) :
    indices place (record.field "feature_idx") = .ok constraint.references := by
  obtain ⟨kind, -, decoded⟩ := bind_eq_ok_iff.mp decoded
  obtain ⟨pair, -, decoded⟩ := bind_eq_ok_iff.mp decoded
  obtain ⟨amount, -, decoded⟩ := bind_eq_ok_iff.mp decoded
  obtain ⟨label, -, decoded⟩ := bind_eq_ok_iff.mp decoded
  obtain ⟨references, found, decoded⟩ := bind_eq_ok_iff.mp decoded
  obtain ⟨x, -, decoded⟩ := bind_eq_ok_iff.mp decoded
  obtain ⟨y, -, decoded⟩ := bind_eq_ok_iff.mp decoded
  obtain ⟨cardinality, -, decoded⟩ := bind_eq_ok_iff.mp decoded
  obtain ⟨labelX, -, decoded⟩ := bind_eq_ok_iff.mp decoded
  obtain ⟨labelY, -, decoded⟩ := bind_eq_ok_iff.mp decoded
  obtain ⟨variant, -, decoded⟩ := bind_eq_ok_iff.mp decoded
  obtain rfl := Except.ok.inj decoded
  exact found

end Records

end Document

/-! ### References to nothing -/

section Dead

variable {α : Type} [Scalar α] {sketch : Sketch α} {h r : Handle}

theorem exists_featureFlaw_of_dead {feature : Feature α} (found : sketch.feature? h = some feature)
    (listed : r ∈ feature.references) (dead : sketch.feature? r = none) :
    ∃ flaw ∈ sketch.flaws, flaw.feature? = some h := by
  have faulty : sketch.featureFaults feature ≠ [] := by
    intro faultless
    have built := Sketch.built_of_featureFaults_eq_nil found faultless
    obtain ⟨point, live, -⟩ := built.points r listed
    rw [dead] at live
    cases live
  obtain ⟨fault, first⟩ := List.exists_mem_of_ne_nil _ faulty
  have flawed := Sketch.mem_featureFlaws_of_fault found first
  exact ⟨_, List.mem_append_left _ (List.mem_append_left _ flawed), rfl⟩

theorem exists_constraintFlaw_of_dead {constraint : Constraint α}
    (found : sketch.constraints.get? h = some constraint) (listed : r ∈ constraint.references)
    (dead : sketch.feature? r = none) :
    ∃ flaw ∈ sketch.flaws, flaw.constraint? = some h := by
  by_contra unowned
  have sound : h ∉ sketch.flaws.filterMap Flaw.constraint? := fun owner =>
    unowned (List.mem_filterMap.mp owner)
  obtain ⟨kinds, fit⟩ := Sketch.fit_of_not_flawed found sound
  obtain ⟨kind, -, parts, built⟩ := exists_right_of_forall₂ fit.references listed
  obtain ⟨feature, live, -⟩ := built.feature
  rw [dead] at live
  cases live

/-- No solve of the drawing is a success, whatever the method, its options and what it remembers. -/
def Sketch.NeverSucceeds (sketch : Sketch α) : Prop :=
  ∀ (ν : Type) [Ordered ν] (numerals : Numerals ν α) (session session' : Session α)
    (methods : Methods α) (options : Options ν) (drag : Option (Drag α)) (result : Result α),
    session.solve numerals methods options sketch drag = (session', .ok result) →
      result.success = false

theorem Sketch.neverSucceeds_of_flaw {flaw : Flaw α} (flawed : flaw ∈ sketch.flaws) :
    sketch.NeverSucceeds := by
  intro ν _ numerals session session' methods options drag result done
  rw [← flaws_of_solve done] at flawed
  rw [← Bool.not_eq_true, Result.success_iff]
  exact fun good => absurd good.1 (List.ne_nil_of_mem flawed)

end Dead

/-! ### Documents -/

namespace Document

variable {value : Json} {document : Document}

/-- A record of a list has, in one of its fields, a position that no feature has. -/
def Strays (value : Json) (key field : String) (k : Nat) : Prop :=
  ∃ record positions, (recordsIn value key)[k]? = some record ∧
    Lists (record.field field) positions ∧
    ∃ i ∈ positions, i < 0 ∨ ((recordsIn value "features").length : Int) ≤ i

/-- What a document stands for: a feature for each of its feature records and a constraint for each
of its constraint records, in order, that refer to the features at the positions given. -/
structure Mirrors (value : Json) (sketch : Sketch Float) : Prop where
  features : Keeps decodeFeature Feature.references "using_idx" value "features" sketch.features
  constraints : Keeps decodeConstraint Constraint.references "feature_idx" value "constraints"
    sketch.constraints
  featureFlaw : ∀ k : Nat, Strays value "features" "using_idx" k →
    ∃ flaw ∈ sketch.flaws, flaw.feature? = some (Handle.first k)
  constraintFlaw : ∀ k : Nat, Strays value "constraints" "feature_idx" k →
    ∃ flaw ∈ sketch.flaws, flaw.constraint? = some (Handle.first k)
  failure : ∀ k : Nat, Strays value "features" "using_idx" k ∨
    Strays value "constraints" "feature_idx" k → sketch.NeverSucceeds

/-- The value of a field lists its positions in one way. -/
theorem Lists.unique {field : Json} {positions others : List Int} (lists : Lists field positions)
    (lists' : Lists field others) : positions = others := by
  cases lists with
  | nothing =>
    cases lists'
    rfl
  | array positions =>
    generalize same : Json.array (positions.map .int) = again at lists'
    cases lists' with
    | nothing => cases same
    | array others =>
      exact List.map_injective_iff.mpr (fun i j => Json.int.inj) (Json.array.inj same)

/-- A position that no feature has becomes a reference to nothing. -/
theorem exists_dead_of_strays {β : Type} {decode : Place → Json → Except DecodeError β}
    {references : β → List Handle} {key field : String} {features : Arena (Feature Float)}
    {arena : Arena β} {k : Nat}
    (featured : Keeps decodeFeature Feature.references "using_idx" value "features" features)
    (keeps : Keeps decode references field value key arena) (strays : Strays value key field k) :
    ∃ item, arena.get? (Handle.first k) = some item ∧
      ∃ r ∈ references item, features.get? r = none := by
  obtain ⟨record, positions, listed, lists, i, member, outside⟩ := strays
  obtain ⟨item, others, -, found, lists', refers⟩ := keeps.item k record listed
  obtain rfl := lists.unique lists'
  refine ⟨item, found, Handle.first i, ?_, featured.vacant i outside⟩
  rw [refers]
  exact List.mem_map_of_mem member

/-- **The positions of a document mean its records**, and a position that means none is found. -/
theorem mirrors_of_decode (decoded : decode value = .ok document) :
    Mirrors value document.sketch := by
  obtain ⟨fields, same, decoded⟩ := bind_eq_ok_iff.mp decoded
  rw [eq_of_object same] at decoded
  obtain ⟨features, featured, decoded⟩ := bind_eq_ok_iff.mp decoded
  obtain ⟨constraints, constrained, decoded⟩ := bind_eq_ok_iff.mp decoded
  obtain ⟨groups, -, decoded⟩ := bind_eq_ok_iff.mp decoded
  obtain ⟨viewport, -, decoded⟩ := bind_eq_ok_iff.mp decoded
  obtain ⟨properties, -, decoded⟩ := bind_eq_ok_iff.mp decoded
  obtain rfl := Except.ok.inj decoded
  have keeps := keeps_store featured fun _ _ _ => indices_of_decodeFeature
  have keeps' := keeps_store constrained fun _ _ _ => indices_of_decodeConstraint
  have featureFlaw (k : Nat) (strays : Strays value "features" "using_idx" k) :
      ∃ flaw ∈ (⟨store features, store constraints, groups⟩ : Sketch Float).flaws,
        flaw.feature? = some (Handle.first k) := by
    obtain ⟨feature, found, r, listed, dead⟩ := exists_dead_of_strays keeps keeps strays
    exact exists_featureFlaw_of_dead found listed dead
  have constraintFlaw (k : Nat) (strays : Strays value "constraints" "feature_idx" k) :
      ∃ flaw ∈ (⟨store features, store constraints, groups⟩ : Sketch Float).flaws,
        flaw.constraint? = some (Handle.first k) := by
    obtain ⟨constraint, found, r, listed, dead⟩ := exists_dead_of_strays keeps keeps' strays
    exact exists_constraintFlaw_of_dead found listed dead
  refine ⟨keeps, keeps', featureFlaw, constraintFlaw, fun k strays => ?_⟩
  rcases strays with strays | strays
  · obtain ⟨flaw, flawed, -⟩ := featureFlaw k strays
    exact Sketch.neverSucceeds_of_flaw flawed
  · obtain ⟨flaw, flawed, -⟩ := constraintFlaw k strays
    exact Sketch.neverSucceeds_of_flaw flawed

namespace Askew

/-- A line whose second end is counted from the end of the list, and a constraint on a feature
behind the last one. -/
def record : Json := .object [
  ("features", .array [
    .object [("kind", .string "point"), ("x", .int 0), ("y", .int 0)],
    .object [("kind", .string "line"), ("using_idx", .array [.int 0, .int (-1)])]]),
  ("constraints", .array [
    .object [("kind", .string "coincident"), ("feature_idx", .array [.int 0, .int 2])]])]

def sketch : Sketch Float where
  features := store [.point 0 0 false, .line ⟨0, 0⟩ ⟨-1, 0⟩ false]
  constraints := store [.plain .coincident [⟨0, 0⟩, ⟨2, 0⟩] none none]
  groups := []

theorem decoded : decode record = .ok ⟨sketch, [], []⟩ := by rfl

theorem strays_line : Strays record "features" "using_idx" 1 :=
  ⟨_, [0, -1], rfl, .array [0, -1], -1, by simp, .inl (by decide)⟩

theorem strays_constraint : Strays record "constraints" "feature_idx" 0 :=
  ⟨_, [0, 2], rfl, .array [0, 2], 2, by simp, .inr (by decide)⟩

end Askew

/-- Neither is accepted, and neither is taken for the line. -/
theorem mirrors_of_decode_askew :
    decode Askew.record = .ok ⟨Askew.sketch, [], []⟩ ∧ Mirrors Askew.record Askew.sketch ∧
      Askew.sketch.features.handles = [⟨0, 0⟩, ⟨1, 0⟩] ∧
      Askew.sketch.feature? ⟨-1, 0⟩ = none ∧
      (∃ flaw ∈ Askew.sketch.flaws, flaw.feature? = some ⟨1, 0⟩) ∧
      (∃ flaw ∈ Askew.sketch.flaws, flaw.constraint? = some ⟨0, 0⟩) ∧
      Askew.sketch.NeverSucceeds := by
  have mirrors : Mirrors Askew.record Askew.sketch := mirrors_of_decode Askew.decoded
  have vacant := mirrors.features.vacant (-1) (.inl (by decide))
  exact ⟨Askew.decoded, mirrors, mirrors.features.handles, vacant,
    mirrors.featureFlaw 1 Askew.strays_line, mirrors.constraintFlaw 0 Askew.strays_constraint,
    mirrors.failure 1 (.inl Askew.strays_line)⟩

end Document

end PlaneSketch
