import Mathlib
import PlaneSketch.Proofs.Deletion
import PlaneSketch.Proofs.Repetition

/-!
What handles name while a drawing is edited.

A place is never given up: deleting its item raises its generation, and new items come behind all
places. What one change does to an arena is told once, and changes are put together one after the
other.

* `Arena.Turns`: what becomes of the handles of an arena. What is not lost is still named, rewritten
  at most; what is lost names nothing from then on, and is stale; new handles come in sequence.
* `Arena.turns_insert`, `Arena.turns_without`, `Arena.turns_update`: the changes that there are.
* `Draft.features_step`, `Draft.features_run`: one edit of a drawing, and a history of them.
* `Sketch.keepsHandles`: what every handle that was issued is worth after any history.
-/

namespace PlaneSketch

open scoped Classical

/-! ### Places -/

namespace Arena

variable {τ : Type} {arena later third : Arena τ} {h k : Handle} {item : τ}

/-- The item of a handle was removed from its place. -/
def Spent (arena : Arena τ) (h : Handle) : Prop :=
  ∃ slot, arena.slot? h = some slot ∧ h.generation < slot.generation

theorem Spent.get?_eq_none (spent : arena.Spent h) : arena.get? h = none := by
  obtain ⟨slot, found, passed⟩ := spent
  simp [get?, found, show (slot.generation : Int) ≠ h.generation by omega]

theorem Spent.isStale (spent : arena.Spent h) : arena.isStale h = true := by
  obtain ⟨slot, found, passed⟩ := spent
  simp [Arena.isStale, found, show (slot.generation : Int) ≠ h.generation by omega]

/-- A handle that names an item is not stale. -/
theorem isStale_of_get? (found : arena.get? h = some item) : arena.isStale h = false := by
  obtain ⟨there, nonneg⟩ := slot?_of_get? found
  simp only [isStale, there, decide_eq_false_iff_not, not_not]
  omega

theorem index_lt_of_mem_handles (listed : h ∈ arena.handles) :
    h.index < (arena.slots.length : Int) := by
  by_contra beyond
  have dead := isLive_eq_false_of_length_le (not_lt.mp beyond)
  rw [mem_handles_iff.mp listed] at dead
  cases dead

/-! ### Changes -/

/-- What becomes of the handles of an arena when it changes: what is lost, how the rest is
rewritten, and what is issued. -/
structure Turns (arena later : Arena τ) (lost : Handle → Prop) (rewrite : Handle → τ → τ)
    (issued : List Handle) : Prop where
  kept : ∀ h item, arena.get? h = some item → ¬lost h → later.get? h = some (rewrite h item)
  lost : ∀ h, arena.isLive h = true → lost h → later.Spent h
  /-- what was removed before is not named again -/
  spent : ∀ h, arena.Spent h → later.Spent h
  fresh : ∀ h ∈ issued, later.isLive h = true ∨ later.Spent h
  places : later.slots.length = arena.slots.length + issued.length
  sequential : issued = (List.range issued.length).map fun i =>
    Handle.first (arena.slots.length + i : Nat)
  order : later.handles = (arena.handles ++ issued).filter later.isLive

theorem Turns.refl (arena : Arena τ) : arena.Turns arena (fun _ => False) (fun _ item => item) []
    where
  kept h item found _ := found
  lost h _ away := away.elim
  spent h spent := spent
  fresh h listed := by cases listed
  places := rfl
  sequential := rfl
  order := by
    rw [List.append_nil, List.filter_eq_self.mpr]
    intro h listed
    exact mem_handles_iff.mp listed

/-- What was issued before a change is named or spent after it. -/
theorem Turns.settled {lost : Handle → Prop} {rewrite : Handle → τ → τ} {issued : List Handle}
    (turns : arena.Turns later lost rewrite issued)
    (settled : arena.isLive h = true ∨ arena.Spent h) : later.isLive h = true ∨ later.Spent h := by
  rcases settled with live | spent
  · by_cases away : lost h
    · exact .inr (turns.lost h live away)
    · obtain ⟨item, found⟩ := Option.isSome_iff_exists.mp live
      refine .inl ?_
      rw [isLive, turns.kept h item found away, Option.isSome_some]
  · exact .inr (turns.spent h spent)

/-- **One change after the other.** -/
theorem Turns.trans {lost lost' : Handle → Prop} {rewrite rewrite' : Handle → τ → τ}
    {issued issued' : List Handle} (first : arena.Turns later lost rewrite issued)
    (second : later.Turns third lost' rewrite' issued') :
    arena.Turns third (fun h => lost h ∨ lost' h) (fun h item => rewrite' h (rewrite h item))
      (issued ++ issued') where
  kept h item found kept := by
    rw [not_or] at kept
    exact second.kept h _ (first.kept h item found kept.1) kept.2
  lost h live away := by
    by_cases gone : lost h
    · exact second.spent h (first.lost h live gone)
    · refine second.lost h ?_ (away.resolve_left gone)
      obtain ⟨item, found⟩ := Option.isSome_iff_exists.mp live
      rw [isLive, first.kept h item found gone, Option.isSome_some]
  spent h spent := second.spent h (first.spent h spent)
  fresh h listed := by
    rcases List.mem_append.mp listed with early | late
    · exact second.settled (first.fresh h early)
    · exact second.fresh h late
  places := by rw [second.places, first.places, List.length_append, Nat.add_assoc]
  sequential := by
    rw [List.length_append, List.range_add, List.map_append, List.map_map, ← first.sequential]
    refine congrArg (issued ++ ·) (second.sequential.trans (List.map_congr_left fun i _ => ?_))
    rw [Function.comp_apply, first.places, Nat.add_assoc]
  order := by
    have alive : ∀ h ∈ arena.handles ++ issued, third.isLive h = true → later.isLive h = true := by
      intro h listed live
      have settled : later.isLive h = true ∨ later.Spent h := by
        rcases List.mem_append.mp listed with old | new
        · exact first.settled (.inl (mem_handles_iff.mp old))
        · exact first.fresh h new
      refine settled.resolve_right fun spent => ?_
      rw [isLive, (second.spent h spent).get?_eq_none] at live
      cases live
    have own : ((arena.handles ++ issued).filter later.isLive).filter third.isLive =
        (arena.handles ++ issued).filter third.isLive := by
      rw [List.filter_filter]
      refine List.filter_congr fun h listed => ?_
      cases live : third.isLive h with
      | true => simp [alive h listed live]
      | false => rfl
    rw [second.order, first.order, List.filter_append, own, ← List.filter_append, List.append_assoc]

theorem slot?_insert {slot : Slot τ} (found : arena.slot? h = some slot) (item : τ) :
    (arena.insert item).1.slot? h = some slot := by
  unfold slot? insert at *
  split at found
  · cases found
  · rename_i nonneg
    obtain ⟨bound, -⟩ := List.getElem?_eq_some_iff.mp found
    rw [if_neg nonneg, List.getElem?_append_left bound, found]

theorem get?_insert_self (arena : Arena τ) (item : τ) :
    (arena.insert item).1.get? (arena.insert item).2 = some item := by
  have nonneg : ¬(arena.slots.length : Int) < 0 := by omega
  simp [get?, slot?, insert, Handle.first, nonneg]

theorem handles_insert (arena : Arena τ) (item : τ) :
    (arena.insert item).1.handles = arena.handles ++ [(arena.insert item).2] := by
  simp [handles, items, insert, itemsFrom_append, itemsFrom, Handle.first]

/-- **A new item** comes behind all others, under the next handle. -/
theorem turns_insert (arena : Arena τ) (item : τ) :
    arena.Turns (arena.insert item).1 (fun _ => False) (fun _ item => item)
      [(arena.insert item).2] where
  kept h item' found _ := by
    obtain ⟨there, nonneg⟩ := slot?_of_get? found
    simp only [get?, slot?_insert there item, Int.toNat_of_nonneg nonneg, if_true]
  lost h _ away := away.elim
  spent h spent := by
    obtain ⟨slot, found, passed⟩ := spent
    exact ⟨slot, slot?_insert found item, passed⟩
  fresh h listed := by
    rw [List.mem_singleton.mp listed, isLive, get?_insert_self]
    exact .inl rfl
  places := by simp [insert]
  sequential := by simp [insert]
  order := by
    rw [← handles_insert, List.filter_eq_self.mpr]
    intro h listed
    exact mem_handles_iff.mp listed

theorem slot?_without {slot : Slot τ} (found : arena.slot? h = some slot) (gone : Handle → Prop) :
    (arena.without gone).slot? h =
      some (if slot.item.isSome ∧ gone ⟨h.index, slot.generation⟩ then ⟨none, slot.generation + 1⟩
        else slot) := by
  unfold slot? without at *
  split at found
  · cases found
  · rename_i nonneg
    rw [if_neg nonneg, List.getElem?_mapIdx, found, Option.map_some,
      Int.toNat_of_nonneg (not_lt.mp nonneg)]

/-- **Items that are taken away** leave their places to nothing. -/
theorem turns_without (arena : Arena τ) (gone : Handle → Prop) :
    arena.Turns (arena.without gone) gone (fun _ item => item) [] where
  kept h item found kept := by rw [get?_without, if_neg kept, found]
  lost h live away := by
    obtain ⟨item, found⟩ := Option.isSome_iff_exists.mp live
    obtain ⟨there, nonneg⟩ := slot?_of_get? found
    refine ⟨_, slot?_without there gone, ?_⟩
    rw [Int.toNat_of_nonneg nonneg, if_pos ⟨rfl, away⟩]
    dsimp only
    omega
  spent h spent := by
    obtain ⟨slot, found, passed⟩ := spent
    refine ⟨_, slot?_without found gone, ?_⟩
    split
    · dsimp only
      omega
    · exact passed
  fresh h listed := by cases listed
  places := by simp [without]
  sequential := rfl
  order := by
    rw [handles, items_without, List.append_nil, handles]
    rw [List.filter_map]
    refine congrArg _ (List.filter_congr fun item listed => ?_)
    have live := mem_handles_iff.mp (List.mem_map_of_mem listed)
    rw [Function.comp_apply, Bool.eq_iff_iff, isLive_without_iff]
    simp [live]

theorem slot?_update {slot : Slot τ} (found : arena.slot? k = some slot) (h : Handle)
    (change : τ → τ) : ∃ slot', (arena.update h change).slot? k = some slot' ∧
      slot'.generation = slot.generation := by
  unfold update
  split
  · unfold slot? at *
    split at found
    · cases found
    · rename_i nonneg
      rw [if_neg nonneg, List.getElem?_modify, found]
      refine ⟨_, rfl, ?_⟩
      split <;> rfl
  · exact ⟨slot, found, rfl⟩

theorem handles_update (arena : Arena τ) (h : Handle) (change : τ → τ) :
    (arena.update h change).handles = arena.handles := by
  have same := congrArg items
    (@map_update τ Unit change (fun _ => ()) (fun _ => rfl) arena h)
  rw [items_map, items_map] at same
  simpa [handles, Function.comp_def] using congrArg (List.map Prod.fst) same

/-- **An item that is replaced** stays where it is. -/
theorem turns_update (arena : Arena τ) (h : Handle) (change : τ → τ) :
    arena.Turns (arena.update h change) (fun _ => False)
      (fun k item => if k = h then change item else item) [] where
  kept k item found _ := by
    rw [get?_update]
    split
    · rename_i same
      rw [← same, found, Option.map_some]
    · exact found
  lost h _ away := away.elim
  spent k spent := by
    obtain ⟨slot, found, passed⟩ := spent
    obtain ⟨slot', found', same⟩ := slot?_update found h change
    exact ⟨slot', found', by omega⟩
  fresh h listed := by cases listed
  places := by
    unfold update
    split <;> simp
  sequential := rfl
  order := by
    rw [List.append_nil, ← handles_update arena h change, List.filter_eq_self.mpr]
    intro k listed
    exact mem_handles_iff.mp listed

theorem Turns.congr {lost lost' : Handle → Prop} {rewrite rewrite' : Handle → τ → τ}
    {issued : List Handle} (turns : arena.Turns later lost rewrite issued)
    (same : ∀ h, lost h ↔ lost' h) (same' : ∀ h item, rewrite h item = rewrite' h item) :
    arena.Turns later lost' rewrite' issued := by
  obtain rfl : lost = lost' := funext fun h => propext (same h)
  obtain rfl : rewrite = rewrite' := funext fun h => funext (same' h)
  exact turns

/-! ### What a handle is worth -/

/-- A handle names an item until the item is lost, and nothing from then on; it is stale when the
item is lost. -/
structure Names (arena : Arena τ) (h : Handle) (item : τ) (lost : Prop) : Prop where
  named : ¬lost → arena.get? h = some item
  gone : lost → arena.get? h = none
  stale_iff : arena.isStale h = true ↔ lost

theorem Turns.names {lost : Handle → Prop} {rewrite : Handle → τ → τ} {issued : List Handle}
    (turns : arena.Turns later lost rewrite issued) (found : arena.get? h = some item) :
    later.Names h (rewrite h item) (lost h) := by
  have spent : lost h → later.Spent h := turns.lost h (by simp [isLive, found])
  refine ⟨turns.kept h item found, fun away => (spent away).get?_eq_none, ?_⟩
  constructor
  · intro stale
    by_contra kept
    rw [isStale_of_get? (turns.kept h item found kept)] at stale
    cases stale
  · intro away
    exact (spent away).isStale

/-- The handles issued since an arena was as it was at the start. -/
structure Issues (start arena : Arena τ) (issued : List Handle) : Prop where
  /-- the places are numbered on from those that there were -/
  sequential : issued = (List.range issued.length).map fun i =>
    Handle.first (start.slots.length + i : Nat)
  distinct : (start.handles ++ issued).Nodup
  /-- the items are those named, in the order in which their handles were issued -/
  items : ∀ h item, (h, item) ∈ arena.items ↔ arena.get? h = some item
  order : arena.handles = (start.handles ++ issued).filter arena.isLive
  apart : ∀ h k, arena.isLive h = true → arena.isLive k = true → h.index = k.index → h = k

theorem Turns.issues {lost : Handle → Prop} {rewrite : Handle → τ → τ} {issued : List Handle}
    (turns : arena.Turns later lost rewrite issued) : arena.Issues later issued where
  sequential := turns.sequential
  distinct := by
    refine List.nodup_append'.mpr ⟨arena.nodup_handles, ?_, ?_⟩
    · rw [turns.sequential]
      refine List.nodup_range.map fun i j same => ?_
      simpa [Handle.first] using same
    · intro h old new
      rw [turns.sequential] at new
      obtain ⟨i, -, rfl⟩ := List.mem_map.mp new
      have before := index_lt_of_mem_handles old
      simp only [Handle.first, Int.natCast_add] at before
      omega
  items _ _ := mem_items_iff
  order := turns.order
  apart _ _ := eq_of_index_eq

end Arena

/-! ### Edits -/

variable {α : Type}

/-- One edit of a drawing. -/
inductive Edit (α : Type)
  | addFeature (feature : Feature α)
  | addConstraint (constraint : Constraint α)
  | deleteFeature (h : Handle)
  | deleteConstraint (h : Handle)
  | apply (values : List (Variable × α))

namespace Edit

/-- The edit deletes the feature. -/
def LosesFeature (sketch : Sketch α) : Edit α → Handle → Prop
  | .deleteFeature k, h => sketch.BuiltOn k h
  | _, _ => False

/-- The edit deletes the constraint. -/
def LosesConstraint (sketch : Sketch α) : Edit α → Handle → Prop
  | .deleteFeature k, h => ∃ constraint, sketch.constraints.get? h = some constraint ∧
    ∃ r ∈ constraint.references, sketch.BuiltOn k r
  | .deleteConstraint k, h => h = k
  | _, _ => False

/-- The feature of a handle as the edit leaves it: with new numbers, where it is given any. -/
def redraw (h : Handle) (feature : Feature α) : Edit α → Feature α
  | .apply values => values.foldl (fun feature pair =>
      if h = pair.1.handle then feature.withValue pair.1.component pair.2 else feature) feature
  | _ => feature

end Edit

/-- A drawing that is edited, with the handles issued on the way. -/
structure Draft (α : Type) where
  sketch : Sketch α
  features : List Handle
  constraints : List Handle

namespace Draft

variable {draft : Draft α} {edit : Edit α} {edits : List (Edit α)} {h : Handle}

/-- A drawing about to be edited. -/
def start (sketch : Sketch α) : Draft α := ⟨sketch, [], []⟩

/-- What one edit leaves. -/
def step (draft : Draft α) : Edit α → Draft α
  | .addFeature feature =>
    let (sketch, h) := draft.sketch.addFeature feature
    ⟨sketch, draft.features ++ [h], draft.constraints⟩
  | .addConstraint constraint =>
    let (sketch, h) := draft.sketch.addConstraint constraint
    ⟨sketch, draft.features, draft.constraints ++ [h]⟩
  | .deleteFeature h => { draft with sketch := (draft.sketch.deleteFeature h).1 }
  | .deleteConstraint h => { draft with sketch := (draft.sketch.deleteConstraint h).1 }
  | .apply values => { draft with sketch := (draft.sketch.apply values).1 }

/-- What several edits leave. -/
def run (draft : Draft α) (edits : List (Edit α)) : Draft α := edits.foldl step draft

/-- One of the edits deletes the item of the handle. -/
def Lost (loses : Sketch α → Edit α → Handle → Prop) (draft : Draft α) (edits : List (Edit α))
    (h : Handle) : Prop :=
  ∃ before edit after, edits = before ++ edit :: after ∧ loses (draft.run before).sketch edit h

theorem lost_cons_iff {loses : Sketch α → Edit α → Handle → Prop} :
    draft.Lost loses (edit :: edits) h ↔
      loses draft.sketch edit h ∨ (draft.step edit).Lost loses edits h := by
  constructor
  · rintro ⟨before, first, after, split, away⟩
    cases before with
    | nil =>
      obtain ⟨rfl, rfl⟩ := List.cons.inj split
      exact .inl away
    | cons other before =>
      obtain ⟨rfl, rfl⟩ := List.cons.inj split
      exact .inr ⟨before, first, after, rfl, away⟩
  · rintro (now | ⟨before, first, after, rfl, away⟩)
    · exact ⟨[], edit, edits, rfl, now⟩
    · exact ⟨edit :: before, first, after, rfl, away⟩

/-! #### One edit -/

/-- Drawing numbers in loses nothing. -/
theorem turns_apply (sketch : Sketch α) (values : List (Variable × α)) :
    sketch.features.Turns (sketch.apply values).1.features (fun _ => False)
      (fun h feature => Edit.redraw h feature (.apply values)) [] := by
  rw [Sketch.apply_eq]
  induction values generalizing sketch with
  | nil => exact .refl _
  | cons pair values ih =>
    have first := sketch.features.turns_update pair.1.handle
      (·.withValue pair.1.component pair.2)
    exact (first.trans (ih (sketch.redrawn pair.1 pair.2))).congr (by simp) fun h feature => rfl

theorem constraints_apply (sketch : Sketch α) (values : List (Variable × α)) :
    (sketch.apply values).1.constraints = sketch.constraints :=
  (sketch.sameOutline_apply values).constraints

/-- **What an edit does to the features.** -/
theorem features_step (draft : Draft α) (edit : Edit α) :
    ∃ issued, (draft.step edit).features = draft.features ++ issued ∧
      draft.sketch.features.Turns (draft.step edit).sketch.features
        (edit.LosesFeature draft.sketch) (fun h feature => edit.redraw h feature) issued := by
  cases edit with
  | addFeature feature => exact ⟨_, rfl, draft.sketch.features.turns_insert feature⟩
  | addConstraint | deleteConstraint => exact ⟨[], (List.append_nil _).symm, .refl _⟩
  | deleteFeature k =>
    refine ⟨[], (List.append_nil _).symm, ?_⟩
    have turns := draft.sketch.features.turns_without (draft.sketch.BuiltOn k)
    rw [step, Sketch.deleteFeature_eq]
    exact turns
  | apply values => exact ⟨[], (List.append_nil _).symm, turns_apply draft.sketch values⟩

/-- **What an edit does to the constraints.** -/
theorem constraints_step (draft : Draft α) (edit : Edit α) :
    ∃ issued, (draft.step edit).constraints = draft.constraints ++ issued ∧
      draft.sketch.constraints.Turns (draft.step edit).sketch.constraints
        (edit.LosesConstraint draft.sketch) (fun _ constraint => constraint) issued := by
  cases edit with
  | addConstraint constraint => exact ⟨_, rfl, draft.sketch.constraints.turns_insert constraint⟩
  | addFeature => exact ⟨[], (List.append_nil _).symm, .refl _⟩
  | deleteFeature k =>
    refine ⟨[], (List.append_nil _).symm, ?_⟩
    have turns := draft.sketch.constraints.turns_without
      (Edit.LosesConstraint draft.sketch (.deleteFeature k))
    rw [step, Sketch.deleteFeature_eq]
    exact turns
  | deleteConstraint k =>
    refine ⟨[], (List.append_nil _).symm, ?_⟩
    have turns := draft.sketch.constraints.turns_without (· = k)
    rw [← Arena.remove_eq] at turns
    exact turns
  | apply values =>
    refine ⟨[], (List.append_nil _).symm, ?_⟩
    rw [step, constraints_apply]
    exact .refl _

/-! #### Histories -/

/-- **What a history does** to the items that are told apart by `places` and `issued`, if this is
what each edit does to them. -/
theorem exists_turns {τ : Type} {places : Sketch α → Arena τ} {issued : Draft α → List Handle}
    {loses : Sketch α → Edit α → Handle → Prop} {redraw : Handle → τ → Edit α → τ}
    (each : ∀ draft edit, ∃ fresh, issued (draft.step edit) = issued draft ++ fresh ∧
      (places draft.sketch).Turns (places (draft.step edit).sketch) (loses draft.sketch edit)
        (fun h item => redraw h item edit) fresh)
    (draft : Draft α) (edits : List (Edit α)) :
    ∃ fresh, issued (draft.run edits) = issued draft ++ fresh ∧
      (places draft.sketch).Turns (places (draft.run edits).sketch) (draft.Lost loses edits)
        (fun h item => edits.foldl (redraw h) item) fresh := by
  induction edits generalizing draft with
  | nil =>
    refine ⟨[], (List.append_nil _).symm, (Arena.Turns.refl _).congr (fun h => ?_) fun _ _ => rfl⟩
    simp [Lost]
  | cons edit edits ih =>
    obtain ⟨fresh, more, first⟩ := each draft edit
    obtain ⟨fresh', more', then'⟩ := ih (draft.step edit)
    refine ⟨fresh ++ fresh', ?_, (first.trans then').congr (fun h => ?_) fun _ _ => rfl⟩
    · rw [← List.append_assoc, ← more]
      exact more'
    · exact lost_cons_iff.symm

theorem features_run (draft : Draft α) (edits : List (Edit α)) :
    ∃ issued, (draft.run edits).features = draft.features ++ issued ∧
      draft.sketch.features.Turns (draft.run edits).sketch.features
        (draft.Lost Edit.LosesFeature edits) (fun h feature => edits.foldl (Edit.redraw h) feature)
        issued :=
  exists_turns features_step draft edits

theorem constraints_run (draft : Draft α) (edits : List (Edit α)) :
    ∃ issued, (draft.run edits).constraints = draft.constraints ++ issued ∧
      draft.sketch.constraints.Turns (draft.run edits).sketch.constraints
        (draft.Lost Edit.LosesConstraint edits) (fun _ constraint => constraint) issued := by
  obtain ⟨issued, more, turns⟩ := @exists_turns α (Constraint α) (·.constraints) (·.constraints)
    Edit.LosesConstraint (fun _ constraint _ => constraint) constraints_step draft edits
  exact ⟨issued, more, turns.congr (fun _ => Iff.rfl) fun _ _ => List.foldl_fixed edits⟩

theorem run_append (draft : Draft α) (edits more : List (Edit α)) :
    draft.run (edits ++ more) = (draft.run edits).run more :=
  List.foldl_append

end Draft

/-! ### After any history -/

/-- What the handles are worth that are issued in a history of edits. -/
structure Sketch.KeepsHandles (sketch : Sketch α) (edits : List (Edit α)) : Prop where
  features : sketch.features.Issues ((Draft.start sketch).run edits).sketch.features
    ((Draft.start sketch).run edits).features
  constraints : sketch.constraints.Issues ((Draft.start sketch).run edits).sketch.constraints
    ((Draft.start sketch).run edits).constraints
  /-- the handle of a feature names it until it is deleted -/
  feature : ∀ before feature after, edits = before ++ .addFeature feature :: after →
    ∀ draft, draft = (Draft.start sketch).run before →
      ∀ h, h = (draft.sketch.addFeature feature).2 →
        h ∈ ((Draft.start sketch).run edits).features ∧
        ((Draft.start sketch).run edits).sketch.features.Names h
          (after.foldl (Edit.redraw h) feature)
          ((draft.step (.addFeature feature)).Lost Edit.LosesFeature after h)
  /-- the handle of a constraint names it until it is deleted -/
  constraint : ∀ before constraint after, edits = before ++ .addConstraint constraint :: after →
    ∀ draft, draft = (Draft.start sketch).run before →
      ∀ h, h = (draft.sketch.addConstraint constraint).2 →
        h ∈ ((Draft.start sketch).run edits).constraints ∧
        ((Draft.start sketch).run edits).sketch.constraints.Names h constraint
          ((draft.step (.addConstraint constraint)).Lost Edit.LosesConstraint after h)

/-- **Handles are never reused or confused**, whatever is added, deleted and drawn in. -/
theorem Sketch.keepsHandles (sketch : Sketch α) (edits : List (Edit α)) :
    sketch.KeepsHandles edits := by
  obtain ⟨issued, all, turns⟩ := Draft.features_run (Draft.start sketch) edits
  obtain ⟨issued', all', turns'⟩ := Draft.constraints_run (Draft.start sketch) edits
  rw [show (Draft.start sketch).features = [] from rfl, List.nil_append] at all
  rw [show (Draft.start sketch).constraints = [] from rfl, List.nil_append] at all'
  subst all all'
  refine ⟨turns.issues, turns'.issues, ?_, ?_⟩
  · rintro before feature after rfl draft rfl h rfl
    rw [Draft.run_append]
    obtain ⟨later, more, onward⟩ := Draft.features_run
      (((Draft.start sketch).run before).step (.addFeature feature)) after
    refine ⟨?_, onward.names (Arena.get?_insert_self _ feature)⟩
    have listed := List.mem_append_left later
      (List.mem_append_right ((Draft.start sketch).run before).features (List.mem_singleton_self
        (((Draft.start sketch).run before).sketch.addFeature feature).2))
    exact more ▸ listed
  · rintro before constraint after rfl draft rfl h rfl
    rw [Draft.run_append]
    obtain ⟨later, more, onward⟩ := Draft.constraints_run
      (((Draft.start sketch).run before).step (.addConstraint constraint)) after
    refine ⟨?_, onward.names (Arena.get?_insert_self _ constraint)⟩
    have listed := List.mem_append_left later
      (List.mem_append_right ((Draft.start sketch).run before).constraints (List.mem_singleton_self
        (((Draft.start sketch).run before).sketch.addConstraint constraint).2))
    exact more ▸ listed

end PlaneSketch
