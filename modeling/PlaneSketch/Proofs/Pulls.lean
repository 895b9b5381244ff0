import Mathlib
import PlaneSketch.Proofs.DampedStep
import PlaneSketch.Proofs.Dragging
import PlaneSketch.Proofs.Translation

/-!
What a pull carries.

A pull has columns and a target for their mean. Where the columns are the coordinates of some
points, recentring displaces the points as one.

* `Pull.hasFDerivAt_residuals`: the matrix of a pull is the derivative of its residuals.
* `Pull.recenter_eq`: a pull whose target is displaced from the mean of its points displaces these
  points, and nothing else.
* `Equations.exists_pull?`: the pull of some anchors in a system has the columns of those that the
  system holds.
-/

namespace PlaneSketch

/-! ### Means -/

section Means

variable {points : List (Vec2 ℝ)} {numbers : List ℝ}

theorem Vec2.add_sub_add_right (a b d : Vec2 ℝ) : a + d - (b + d) = a - b :=
  congrArg₂ mk (add_sub_add_right_eq_sub a.x b.x d.x) (add_sub_add_right_eq_sub a.y b.y d.y)

theorem Vec2.add_displacement (a b : Vec2 ℝ) : a + (b - a) = b :=
  congrArg₂ mk (add_sub_cancel a.x b.x) (add_sub_cancel a.y b.y)

theorem Vector.mean_add (nonempty : numbers ≠ []) (amount : ℝ) :
    Vector.mean (numbers.map (· + amount)) = Vector.mean numbers + amount := by
  have count : (numbers.length : ℝ) ≠ 0 := by simpa using nonempty
  rw [mean, mean, sum_real, sum_real, List.sum_map_add, List.map_const', List.sum_replicate,
    List.length_map, Scalar.ofNat_real, nsmul_eq_mul, List.map_id']
  field_simp

/-- **The mean goes along** with a displacement. -/
theorem meanPoint_add (nonempty : points ≠ []) (d : Vec2 ℝ) :
    meanPoint (points.map (· + d)) = meanPoint points + d := by
  have nonemptyX : points.map (·.x) ≠ [] := by simpa using nonempty
  have nonemptyY : points.map (·.y) ≠ [] := by simpa using nonempty
  have meanX := Vector.mean_add nonemptyX d.x
  have meanY := Vector.mean_add nonemptyY d.y
  rw [List.map_map] at meanX meanY
  rw [meanPoint, List.map_map, List.map_map]
  exact congrArg₂ Vec2.mk meanX meanY

end Means

/-! ### Displaced points -/

namespace Valuation

variable {v : Valuation ℝ} {points : List Handle} {d : Vec2 ℝ} {p : Handle}

/-- Some points displaced, and all else where it is. -/
noncomputable def displace (v : Valuation ℝ) (points : List Handle) (d : Vec2 ℝ) : Valuation ℝ :=
  fun u => v u + if u.handle ∈ points then translation d u else 0

theorem point_displace (member : p ∈ points) : (v.displace points d).point p = v.point p + d := by
  simp only [point, displace, if_pos member]
  rfl

theorem displace_of_not_mem {u : Variable} (other : u.handle ∉ points) :
    v.displace points d u = v u := by
  rw [displace, if_neg other, add_zero]

end Valuation

/-! ### The derivative of a pull -/

namespace Pull

section Derivative

variable {pull : Pull ℝ} {columns : List Nat} {x e : List ℝ} {width : Nat}

theorem meanAt_eq (columns : List Nat) (x : List ℝ) :
    meanAt columns x = (columns.map fun i => x.getD i 0).sum / columns.length := by
  rw [meanAt, Vector.mean, Vector.sum_real, List.length_map, Scalar.ofNat_real]

theorem meanAt_add (inside : ∀ i ∈ columns, i < width) (long : x.length = width)
    (long' : e.length = width) :
    meanAt columns (Vector.add x e) = meanAt columns x + meanAt columns e := by
  have entries : columns.map (fun i => (Vector.add x e).getD i 0) =
      columns.map fun i => x.getD i 0 + e.getD i 0 := by
    refine List.map_congr_left fun i listed => ?_
    have here : i < x.length := long ▸ inside i listed
    have here' : i < e.length := long' ▸ inside i listed
    simp [Vector.add, here, here']
  rw [meanAt_eq, meanAt_eq, meanAt_eq, entries, List.sum_map_add, add_div]

/-- A row of the matrix of a pull measures the mean of its columns. -/
theorem dot_row (distinct : columns.Nodup) (inside : ∀ i ∈ columns, i < width)
    (long : e.length = width) (weight : ℝ) :
    Vector.dot ((List.range width).map fun i =>
      if columns.contains i then weight / Scalar.ofNat columns.length else 0) e =
        weight * meanAt columns e := by
  have wide : ((List.range width).map fun i =>
      if columns.contains i then weight / Scalar.ofNat columns.length else (0 : ℝ)).length =
        width := by simp
  have products : ∀ j : Fin width, ((List.range width).map fun i =>
      if columns.contains i then weight / Scalar.ofNat columns.length else (0 : ℝ)).getD j 0 *
        e.getD j 0 =
      if (j : Nat) ∈ columns.toFinset then weight / columns.length * e.getD j 0 else 0 := by
    intro j
    simp [Scalar.ofNat_real, ite_mul]
  have within : columns.toFinset ⊆ Finset.range width := fun i listed =>
    Finset.mem_range.mpr (inside i (List.mem_toFinset.mp listed))
  rw [dot_eq_sum wide long, Finset.sum_congr rfl fun j _ => products j,
    Fin.sum_univ_eq_sum_range fun i =>
      if i ∈ columns.toFinset then weight / columns.length * e.getD i 0 else 0,
    Finset.sum_ite_mem, Finset.inter_eq_right.mpr within, ← Finset.mul_sum,
    List.sum_toFinset _ distinct, meanAt_eq]
  ring

/-- **The residuals of a pull are linear**, up to a constant, and its matrix is that of the linear
part. -/
theorem residuals_add (fits : pull.Fits width) (distinctX : pull.xColumns.Nodup)
    (distinctY : pull.yColumns.Nodup) (long : x.length = width) (long' : e.length = width) :
    pull.residuals (Vector.add x e) =
      Vector.add (pull.residuals x) ((pull.jacobian width).map (Vector.dot · e)) := by
  rw [residuals, residuals, jacobian, List.map_map, List.map_cons, List.map_cons, List.map_nil,
    Function.comp_apply, Function.comp_apply, dot_row distinctX fits.x_inside long',
    dot_row distinctY fits.y_inside long', meanAt_add fits.x_inside long long',
    meanAt_add fits.y_inside long long']
  simp only [Vector.add, List.zipWith_cons_cons, List.zipWith_nil_left]
  congr 1
  · ring
  · congr 1
    ring

theorem length_of_mem_jacobian : ∀ row ∈ pull.jacobian width, row.length = width := by
  intro row listed
  obtain ⟨columns, -, rfl⟩ := List.mem_map.mp listed
  simp

/-- **The matrix of a pull is the derivative of its residuals.** -/
theorem hasFDerivAt_residuals (fits : pull.Fits width) (distinctX : pull.xColumns.Nodup)
    (distinctY : pull.yColumns.Nodup) (v : EuclideanSpace ℝ (Fin width)) :
    HasFDerivAt (fun u : EuclideanSpace ℝ (Fin width) =>
        rowVector (pull.jacobian width).length (pull.residuals (List.ofFn u)))
      (LinearMap.toContinuousLinearMap ((pull.jacobian width).linearMap width)) v := by
  let origin : List ℝ := List.replicate width 0
  have linear (u : EuclideanSpace ℝ (Fin width)) :
      rowVector (pull.jacobian width).length (pull.residuals (List.ofFn u)) =
        (pull.jacobian width).linearMap width u +
          rowVector (pull.jacobian width).length (pull.residuals origin) := by
    have long : (List.ofFn u).length = width := List.length_ofFn
    have same : rowVector width (List.ofFn u) = u := by
      ext j
      simp [rowVector]
    have step : Vector.add origin (List.ofFn u) = List.ofFn u := by
      refine List.ext_getElem (by simp [Vector.add, origin]) fun i _ _ => ?_
      simp [Vector.add, origin]
    have rows : (pull.residuals origin).length = (pull.jacobian width).length := rfl
    have rows' : ((pull.jacobian width).map (Vector.dot · (List.ofFn u))).length =
        (pull.jacobian width).length := List.length_map _
    have moved : pull.residuals (List.ofFn u) = Vector.add (pull.residuals origin)
        ((pull.jacobian width).map (Vector.dot · (List.ofFn u))) := by
      rw [← residuals_add fits distinctX distinctY List.length_replicate long, step]
    rw [moved, rowVector_add rows rows', add_comm,
      ← Matrix.linearMap_rowVector length_of_mem_jacobian long, same]
  exact ((LinearMap.toContinuousLinearMap _).hasFDerivAt.add_const _).congr_of_eventuallyEq
    (Filter.Eventually.of_forall linear)

end Derivative

/-! ### Points taken along -/

section Points

variable {free : List Variable} {columns : List Nat} {points : List Handle} {c : Component}

/-- These columns are those of one coordinate of some points. -/
def Covers (columns : List Nat) (free : List Variable) (points : List Handle) (c : Component) :
    Prop :=
  columns.map (fun i => free[i]?) = points.map fun p => some ⟨p, c⟩

theorem Covers.mem_iff (covers : Covers columns free points c) (distinct : free.Nodup) {i : Nat}
    (inside : i < free.length) :
    i ∈ columns ↔ free[i].component = c ∧ free[i].handle ∈ points := by
  have held : free[i]? = some free[i] := List.getElem?_eq_getElem inside
  constructor
  · intro listed
    have image : some free[i] ∈ points.map fun p => some (⟨p, c⟩ : Variable) := by
      rw [← covers, ← held]
      exact List.mem_map_of_mem listed
    obtain ⟨p, member, same⟩ := List.mem_map.mp image
    rw [← Option.some.inj same]
    exact ⟨rfl, member⟩
  · rintro ⟨rfl, member⟩
    have image : some free[i] ∈ columns.map fun i => free[i]? := by
      rw [covers]
      exact List.mem_map.mpr ⟨free[i].handle, member, rfl⟩
    obtain ⟨j, listed, same⟩ := List.mem_map.mp image
    obtain ⟨inside', same⟩ := List.getElem?_eq_some_iff.mp same
    obtain rfl : j = i := distinct.getElem_inj_iff.mp same
    exact listed

theorem Covers.ne_nil (covers : Covers columns free points c) (nonempty : points ≠ []) :
    columns ≠ [] := by
  rintro rfl
  exact nonempty (List.map_eq_nil_iff.mp covers.symm)

theorem Covers.nodup (covers : Covers columns free points c) (distinct : points.Nodup) :
    columns.Nodup := by
  refine List.Nodup.of_map (fun i => free[i]?) ?_
  rw [covers]
  refine distinct.map fun p q same => ?_
  exact congrArg Variable.handle (Option.some.inj same)

theorem Covers.meanAt_eq (covers : Covers columns free points c) (v : Valuation ℝ) :
    meanAt columns (free.map v) = Vector.mean (points.map fun p => v ⟨p, c⟩) := by
  have entries := congrArg (List.map fun held : Option Variable => (held.map v).getD 0) covers
  rw [List.map_map, List.map_map] at entries
  rw [meanAt]
  refine congrArg Vector.mean (Eq.trans (List.map_congr_left fun i _ => ?_) entries)
  simp [List.getD_eq_getElem?_getD]

/-- **A pull displaces its points**, and nothing else, when its target is displaced from their
mean. -/
theorem recenter_eq {pull : Pull ℝ} (coversX : Covers pull.xColumns free points .x)
    (coversY : Covers pull.yColumns free points .y) (distinct : free.Nodup) (v : Valuation ℝ)
    {d : Vec2 ℝ} (target : pull.target = meanPoint (points.map v.point) + d) :
    pull.recenter (free.map v) = free.map (v.displace points d) := by
  have meanX : meanAt pull.xColumns (free.map v) = (meanPoint (points.map v.point)).x := by
    rw [coversX.meanAt_eq, meanPoint, List.map_map]
    rfl
  have meanY : meanAt pull.yColumns (free.map v) = (meanPoint (points.map v.point)).y := by
    rw [coversY.meanAt_eq, meanPoint, List.map_map, List.map_map]
    rfl
  have amountX : pull.target.x - meanAt pull.xColumns (free.map v) = d.x := by
    rw [meanX, target]
    exact add_sub_cancel_left (meanPoint (points.map v.point)).x d.x
  have amountY : pull.target.y - meanAt pull.yColumns (free.map v) = d.y := by
    rw [meanY, target]
    exact add_sub_cancel_left (meanPoint (points.map v.point)).y d.y
  refine List.ext_getElem ((pull.length_recenter _).trans (by simp)) fun i inside inside' => ?_
  have known : i < free.length := by simpa using inside'
  have here : i < (free.map v).length := by simpa using known
  have entry : (pull.recenter (free.map v)).getD i 0 = v.displace points d free[i] := by
    rw [recenter, amountX, amountY, getD_shift ((length_shift _ _ _).symm ▸ here),
      getD_shift here, List.getD_eq_getElem _ _ here, List.getElem_map, Valuation.displace,
      translation]
    simp only [coversX.mem_iff distinct known, coversY.mem_iff distinct known]
    by_cases member : free[i].handle ∈ points
    · cases c : free[i].component <;> simp [member]
    · simp [member]
  rw [List.getElem_map, ← entry, List.getD_eq_getElem]

/-- **A pull carries some points**: it has the columns of their coordinates and no others, from any
position it comes to rest at the target, and its matrix, with a row for each residual and a column
for each variable, is the derivative of its residuals. -/
structure Carries (pull : Pull ℝ) (free : List Variable) (points : List Handle) : Prop where
  x_covers : Covers pull.xColumns free points .x
  y_covers : Covers pull.yColumns free points .y
  rests : ∀ x, x.length = free.length → pull.residuals (pull.recenter x) = [0, 0]
  rows : ∀ x, (pull.jacobian free.length).length = (pull.residuals x).length
  columns : ∀ row ∈ pull.jacobian free.length, row.length = free.length
  derivative : ∀ v : EuclideanSpace ℝ (Fin free.length),
    HasFDerivAt (fun u : EuclideanSpace ℝ (Fin free.length) =>
        rowVector (pull.jacobian free.length).length (pull.residuals (List.ofFn u)))
      (LinearMap.toContinuousLinearMap ((pull.jacobian free.length).linearMap free.length)) v

end Points

end Pull

/-! ### The pull on an island -/

namespace Equations

variable {system : Equations ℝ} {anchors : List Handle}

/-- The points of which both coordinates are free in a system. -/
def held (system : Equations ℝ) (points : List Handle) : List Handle :=
  points.filter fun h => ⟨h, .x⟩ ∈ system.free ∧ ⟨h, .y⟩ ∈ system.free

/-- Without equations a solve ends where it sets out. -/
theorem outcome_of_no_rows (none : system.rows = 0) (methods : Methods ℝ) (options : Options ℝ)
    (pull : Option (Pull ℝ)) (x : List ℝ) : (system.solve methods options pull x).outcome =
      .ok (system.outcomeAt options (setOut pull x) 0) := by
  unfold solve
  rw [if_pos (by simp [none])]
  cases pull <;> rfl

theorem covers_columns (c : Component) (whole : ∀ h ∈ anchors,
      ⟨h, c⟩ ∈ system.free ↔ ⟨h, .x⟩ ∈ system.free ∧ ⟨h, .y⟩ ∈ system.free) :
    Pull.Covers (anchors.filterMap fun h => system.column? ⟨h, c⟩) system.free
      (system.held anchors) c := by
  induction anchors with
  | nil => rfl
  | cons h anchors ih =>
    have rest := ih fun k listed => whole k (List.mem_cons_of_mem _ listed)
    have here := whole h List.mem_cons_self
    rw [held, List.filterMap_cons, List.filter_cons, ← held]
    simp only [decide_eq_true_eq, ← here]
    cases found : system.column? ⟨h, c⟩ with
    | none =>
      rw [if_neg (column?_eq_none_iff.mp found)]
      exact rest
    | some i =>
      obtain ⟨inside, same⟩ := get_column found
      rw [if_pos (same ▸ List.getElem_mem inside), Pull.Covers, List.map_cons, List.map_cons, rest,
        List.getElem?_eq_getElem inside, same]

/-- **A pull carries the points that are held**, when the coordinates of a point are free
together. -/
theorem exists_pull? (distinct : anchors.Nodup)
    (together : ∀ h ∈ anchors, ⟨h, .x⟩ ∈ system.free ↔ ⟨h, .y⟩ ∈ system.free)
    (nonempty : system.held anchors ≠ []) (target : Vec2 ℝ) (weight : ℝ) :
    ∃ pull, system.pull? anchors target weight = some pull ∧ pull.target = target ∧
      pull.Carries system.free (system.held anchors) := by
  have x_covers := system.covers_columns .x fun h listed =>
    (and_iff_left_of_imp (together h listed).mp).symm
  have y_covers := system.covers_columns .y fun h listed =>
    (and_iff_right_of_imp (together h listed).mpr).symm
  have once : (system.held anchors).Nodup := distinct.filter _
  have pulled : system.pull? anchors target weight =
      some ⟨anchors.filterMap fun h => system.column? ⟨h, .x⟩,
        anchors.filterMap fun h => system.column? ⟨h, .y⟩, target, weight⟩ := by
    rw [pull?, if_neg]
    simp [x_covers.ne_nil nonempty, y_covers.ne_nil nonempty]
  have fits := fits_of_pull? pulled
  exact ⟨_, pulled, rfl, x_covers, y_covers,
    fun x long => Pull.residuals_recenter (long ▸ fits), fun _ => rfl,
    Pull.length_of_mem_jacobian,
    Pull.hasFDerivAt_residuals fits (x_covers.nodup once) (y_covers.nodup once)⟩

end Equations

end PlaneSketch
