/-
# What has been accepted is accepted again

The data and the bounds of a design are checked when it is built, and a second time where an
oracle is built over the data and where the box is estimated. The second checks find nothing:
data that passed are rows of one length, bounds that passed are finite and as many as there are
axes, and laid out as grids they pass again and give the same point set and the same box. There is
one exception. Data pass if they are finite as they are given, and a number in extended precision
may become infinite when it is made a double. Such data do not pass again.
-/

import PointPattern.Design
import PointPattern.Proofs.Double.Fractions
import PointPattern.Proofs.Interchange

namespace PointPattern

/-! ## Arrays of doubles -/

/-- An array of doubles is read as it stands. -/
theorem checkArray_ofGrid (g : Grid Float) (parameter : String) :
    checkArray (.ofGrid g) parameter = .ok ⟨.double, g.map .double⟩ := by
  have read : (Value.ofGrid g).leaves.map (Value.toRealCell .double) = g.values.map .double := by
    show ((g.values.map Value.real).map _).map _ = _
    rw [List.map_map, List.map_map]
    rfl
  calc checkArray (.ofGrid g) parameter
      = .ok ⟨.double, g.shape, (Value.ofGrid g).leaves.map (Value.toRealCell .double)⟩ := rfl
    _ = .ok ⟨.double, g.map .double⟩ := by rw [read, Grid.map]

@[simp] theorem grid_of_doubles (type : ElementType) (g : Grid Float) :
    (⟨type, g.map .double⟩ : RealTable).grid = g := by
  rw [RealTable.grid, Grid.map, Grid.map, List.map_map]
  exact congrArg (Grid.mk g.shape) (List.map_id _)

section Finite

variable {K : Type} [HasInfinities K] {g : Grid K} {parameter : String}

theorem checkFinite_of_finite (finite : ∀ x ∈ g.values, HasInfinities.isFinite x = true)
    (parameter : String) : checkFinite g parameter = .ok () :=
  if_pos (List.all_eq_true.2 finite)

theorem checkFinite_of_infinite (infinite : ¬∀ x ∈ g.values, HasInfinities.isFinite x = true)
    (parameter : String) :
    checkFinite g parameter = .error (.invalid (.notFinite parameter
      (g.values.countP HasInfinities.isNaN) (g.values.countP HasInfinities.isInf))) :=
  if_neg (mt List.all_eq_true.1 infinite)

theorem finite_of_checkFinite (checked : checkFinite g parameter = .ok ()) :
    ∀ x ∈ g.values, HasInfinities.isFinite x = true := by
  by_contra infinite
  rw [checkFinite_of_infinite infinite] at checked
  cases checked

end Finite

/-! ## Elements of data -/

namespace Value

/-- All numbers in extended precision among the elements of a value lie in the range of doubles. -/
def FitsDoubles (v : Value) : Prop :=
  ∀ c ∈ v.leaves, ∀ x, c.extended? = some x → Double.InRangeOfDoubles x

theorem toReal_of_extended {v : Value} {x : Number.Binary} (wide : v.extended? = some x) :
    v.toReal? = .ok x.nearestDouble := by
  fun_induction extended? v with
  | case1 y =>
      cases wide
      rfl
  | case2 type v ih =>
      rw [toReal?]
      · exact ih wide
      · rintro _ re im rfl rfl
        cases wide
  | case3 => cases wide

/-- An element of a table becomes the same double whatever the type of the table is. -/
theorem toFloat_toRealCell (type : ElementType) (v : Value) :
    (v.toRealCell type).toFloat = v.cellToFloat := by
  fun_cases toRealCell type v with
  | case1 x wide => rw [RealCell.toFloat, cellToFloat, toReal_of_extended wide]
  | case2 => rfl

/-- An element that is finite as it is given is a finite double if it fits. -/
theorem isFinite_of_toRealCell {type : ElementType} {v : Value}
    (finite : HasInfinities.isFinite (v.toRealCell type) = true)
    (fits : ∀ x, v.extended? = some x → Double.InRangeOfDoubles x) :
    v.cellToFloat.isFinite = true := by
  revert finite
  fun_cases toRealCell type v with
  | case1 x wide =>
      intro _
      rw [cellToFloat, toReal_of_extended wide]
      exact (Double.isFinite_nearestDouble_iff x).2 (fits x wide)
  | case2 => exact id

/-- An element that is finite as it is given becomes a number, if perhaps an infinite one. -/
theorem isNaN_of_toRealCell {type : ElementType} {v : Value}
    (finite : HasInfinities.isFinite (v.toRealCell type) = true) :
    v.cellToFloat.isNaN = false := by
  revert finite
  fun_cases toRealCell type v with
  | case1 x wide =>
      rw [cellToFloat, toReal_of_extended wide]
      exact Double.isNaN_nearestDouble
  | case2 => exact Double.isNaN_of_isFinite (f := Double.view v.cellToFloat)

end Value

/-! ## Data -/

/-- All numbers of a table are finite as they are given. -/
def RealTable.IsFinite (t : RealTable) : Prop :=
  ∀ x ∈ t.given.values, HasInfinities.isFinite x = true

theorem values_asColumn {K : Type} (g : Grid K) : (asColumn g).values = g.values := by
  rw [asColumn]
  split <;> rfl

theorem asColumn_map {K L : Type} (f : K → L) (g : Grid K) :
    asColumn (g.map f) = (asColumn g).map f := by
  obtain ⟨shape, values⟩ := g
  rcases shape with _ | ⟨n, _ | ⟨m, rest⟩⟩ <;> rfl

/-- What has been read as an array has the elements of the value. -/
theorem given_of_checkArray {v : Value} {parameter : String} {table : RealTable}
    (read : checkArray v parameter = .ok table) :
    ∃ type, table.given.values = v.leaves.map (Value.toRealCell type) := by
  rw [checkArray, Value.toTable] at read
  cases shape : v.shape? with
  | error reason =>
      rw [shape] at read
      cases read
  | ok shape' =>
      rw [shape] at read
      simp only [Bind.bind, Except.bind, Pure.pure, Except.pure, Except.mapError] at read
      split at read
      · cases read
      split at read
      · cases read
      split at read <;> cases read <;> exact ⟨v.tableType, rfl⟩

/-- All coordinates are finite. -/
def PointSet.IsFinite (s : PointSet Float) : Prop :=
  ∀ row ∈ s.points, ∀ x ∈ row, x.isFinite = true

theorem mem_of_mem_cut {K : Type} {count length : ℕ} {values row : List K} {x : K}
    (row_mem : row ∈ Grid.cut count length values) (mem : x ∈ row) : x ∈ values := by
  induction count generalizing values with
  | zero => cases row_mem
  | succ count ih =>
      rcases List.mem_cons.1 row_mem with rfl | later
      · exact List.mem_of_mem_take mem
      · exact List.mem_of_mem_drop (ih later)

theorem length_flatten_of_length {K : Type} {dim : ℕ} {rows : List (List K)}
    (lengths : ∀ row ∈ rows, row.length = dim) : rows.flatten.length = rows.length * dim := by
  induction rows with
  | nil => simp
  | cons row rest ih =>
      rw [List.flatten_cons, List.length_append, lengths row List.mem_cons_self,
        ih fun other mem => lengths other (List.mem_cons_of_mem row mem), List.length_cons,
        Nat.succ_mul, Nat.add_comm]

/-- The block of a point set is a block of the same point set. -/
theorem ofBlock_flatten {K : Type} (points : PointSet K) :
    PointSet.ofBlock? points.points.length points.dim points.points.flatten = some points := by
  obtain ⟨dim, rows, dim_pos, rows_ne_nil, lengths⟩ := points
  have some_rows : 0 < rows.length := List.length_pos_iff.2 rows_ne_nil
  rw [PointSet.ofBlock?, dif_pos ⟨some_rows, dim_pos, length_flatten_of_length lengths⟩]
  simp only [cut_flatten lengths]

/-- Cutting a block that fills its shape loses nothing. -/
theorem flatten_cut {K : Type} {count length : ℕ} {values : List K}
    (fills : values.length = count * length) :
    (Grid.cut count length values).flatten = values := by
  induction count generalizing values with
  | zero =>
      rw [Nat.zero_mul] at fills
      exact (List.length_eq_zero_iff.1 fills).symm
  | succ count ih =>
      have fewer : (values.drop length).length = count * length := by
        rw [List.length_drop, fills, Nat.succ_mul, Nat.add_sub_cancel]
      rw [Grid.cut, List.flatten_cons, ih fewer, List.take_append_drop]

/-- A point set that is cut out of a block is laid out as that block. -/
theorem toGrid_of_ofBlock? {K : Type} {n dim : ℕ} {values : List K} {points : PointSet K}
    (block : PointSet.ofBlock? n dim values = some points) :
    points.toGrid = ⟨[n, dim], values⟩ := by
  rw [PointSet.ofBlock?] at block
  split at block
  · next fills =>
      cases block
      simp only [PointSet.toGrid, Grid.ofRows, Grid.length_cut, flatten_cut fills.2.2]
  · cases block

theorem PointSet.isFinite_iff {points : PointSet Float} :
    points.IsFinite ↔ ∀ x ∈ points.toGrid.values, x.isFinite = true := by
  constructor
  · intro finite x mem
    obtain ⟨row, row_mem, mem⟩ := List.mem_flatten.1 mem
    exact finite row row_mem x mem
  · intro finite row row_mem x mem
    exact finite x (List.mem_flatten.2 ⟨row, row_mem, mem⟩)

/-- What is read as the block of a point set is checked for being finite as it is given, and for
nothing else. -/
theorem checkPoints_of_block {v : Value} {parameter : String} {table : RealTable}
    {points : PointSet Float} (read : checkArray v parameter = .ok table)
    (block : asColumn table.grid = points.toGrid) :
    checkPoints v parameter =
      (checkFinite (asColumn table.given) parameter).map fun _ => points := by
  have some_points : ¬(points.points.length : ℤ) < 1 := by
    have := points.size_pos
    rw [PointSet.size] at this
    omega
  rw [RealTable.grid, asColumn_map] at block
  generalize given : asColumn table.given = g at block
  have shape : g.shape = [points.points.length, points.dim] := congrArg Grid.shape block
  have values : g.values.map RealCell.toFloat = points.points.flatten :=
    congrArg Grid.values block
  have axes : checkAxes g 2 parameter = .ok () := by
    rw [checkAxes, shape]
    rfl
  have enough : checkMinSamples g 1 parameter = .ok () := by
    rw [checkMinSamples, shape]
    exact if_neg some_points
  simp only [checkPoints, read, given, Bind.bind, Except.bind, axes, enough, shape,
    if_neg (Nat.not_lt.2 points.dim_pos), values, ofBlock_flatten points]
  cases checkFinite g parameter <;> rfl

/-- What passes as data is read as a finite array, which as doubles is the block of the point set,
once a single axis counts as a column. -/
theorem checkPoints_eq_ok_iff {v : Value} {parameter : String} {points : PointSet Float} :
    checkPoints v parameter = .ok points ↔
      ∃ table, checkArray v parameter = .ok table ∧ asColumn table.grid = points.toGrid ∧
        table.IsFinite := by
  constructor
  · intro checked
    obtain ⟨table, read, checked⟩ := exists_of_bind_eq_ok checked
    obtain ⟨_, -, checked⟩ := exists_of_bind_eq_ok checked
    obtain ⟨_, -, checked⟩ := exists_of_bind_eq_ok checked
    refine ⟨table, read, ?_⟩
    rw [RealTable.grid, asColumn_map, RealTable.IsFinite, ← values_asColumn]
    generalize asColumn table.given = g at checked
    split at checked
    · next n dim shape =>
        by_cases coordinates : dim < 1
        · simp only [if_pos coordinates] at checked
          cases checked
        · simp only [if_neg coordinates] at checked
          obtain ⟨_, finite, checked⟩ := exists_of_bind_eq_ok checked
          split at checked
          · next points' block =>
              cases checked
              rw [toGrid_of_ofBlock? block, ← shape]
              exact ⟨rfl, finite_of_checkFinite finite⟩
          · cases checked
    · cases checked
  · rintro ⟨table, read, block, finite⟩
    rw [RealTable.IsFinite, ← values_asColumn] at finite
    rw [checkPoints_of_block read block, checkFinite_of_finite finite]
    rfl

/-- The coordinates of data that pass are the elements as doubles. -/
theorem values_of_checkPoints {v : Value} {parameter : String} {points : PointSet Float}
    (checked : checkPoints v parameter = .ok points) :
    points.toGrid.values = v.leaves.map Value.cellToFloat := by
  obtain ⟨table, read, block, -⟩ := checkPoints_eq_ok_iff.1 checked
  obtain ⟨type, given⟩ := given_of_checkArray read
  rw [← block, values_asColumn, RealTable.grid, Grid.map, given, List.map_map]
  exact List.map_congr_left fun c _ => Value.toFloat_toRealCell type c

/-- Data that pass are finite unless a number in extended precision lies beyond the doubles. -/
theorem isFinite_of_checkPoints_iff {v : Value} {parameter : String} {points : PointSet Float}
    (checked : checkPoints v parameter = .ok points) : points.IsFinite ↔ v.FitsDoubles := by
  rw [PointSet.isFinite_iff, values_of_checkPoints checked, List.forall_mem_map]
  refine forall₂_congr fun c mem => ⟨fun finite x wide => ?_, fun fits => ?_⟩
  · rw [Value.cellToFloat, Value.toReal_of_extended wide] at finite
    exact (Double.isFinite_nearestDouble_iff x).1 finite
  · obtain ⟨table, read, -, finite⟩ := checkPoints_eq_ok_iff.1 checked
    obtain ⟨type, given⟩ := given_of_checkArray read
    rw [RealTable.IsFinite, given, List.forall_mem_map] at finite
    exact Value.isFinite_of_toRealCell (finite c mem) fits

/-- The number of infinite coordinates. -/
def PointSet.infinities (points : PointSet Float) : ℕ := points.toGrid.values.countP Float.isInf

/-- The coordinates of data that pass are numbers. -/
theorem isNaN_of_checkPoints {v : Value} {parameter : String} {points : PointSet Float}
    (checked : checkPoints v parameter = .ok points) :
    ∀ x ∈ points.toGrid.values, x.isNaN = false := by
  obtain ⟨table, read, -, finite⟩ := checkPoints_eq_ok_iff.1 checked
  obtain ⟨type, given⟩ := given_of_checkArray read
  rw [RealTable.IsFinite, given, List.forall_mem_map] at finite
  rw [values_of_checkPoints checked, List.forall_mem_map]
  exact fun c mem => Value.isNaN_of_toRealCell (finite c mem)

/-- So they are all finite if none is infinite. -/
theorem isFinite_iff_infinities {v : Value} {parameter : String} {points : PointSet Float}
    (checked : checkPoints v parameter = .ok points) :
    points.IsFinite ↔ points.infinities = 0 := by
  rw [PointSet.isFinite_iff, PointSet.infinities, List.countP_eq_zero]
  refine forall₂_congr fun x mem => ?_
  rw [Double.isInf_eq, isNaN_of_checkPoints checked x mem]
  cases x.isFinite <;> decide

/-- Where the points do not pass again, the complaint counts the infinite coordinates. -/
theorem checkFinite_of_checkPoints {v : Value} {parameter : String} {points : PointSet Float}
    (checked : checkPoints v parameter = .ok points) (infinite : ¬points.IsFinite)
    (parameter' : String) :
    checkFinite points.toGrid parameter' =
      .error (.invalid (.notFinite parameter' 0 points.infinities)) := by
  have numbers : points.toGrid.values.countP HasInfinities.isNaN = 0 :=
    List.countP_eq_zero.2 fun x mem => Bool.eq_false_iff.1 (isNaN_of_checkPoints checked x mem)
  rw [PointSet.isFinite_iff] at infinite
  rw [checkFinite_of_infinite infinite, numbers]
  rfl

theorem checkFinite_doubles (g : Grid Float) (parameter : String) :
    checkFinite (g.map RealCell.double) parameter = checkFinite g parameter := by
  rw [checkFinite, checkFinite, Grid.map, List.all_map, List.countP_map, List.countP_map]
  rfl

/-- A point set that is given as it stands is checked for being finite, and for nothing else. -/
theorem checkPoints_toGrid (points : PointSet Float) (parameter : String) :
    checkPoints (.ofGrid points.toGrid) parameter =
      (checkFinite points.toGrid parameter).map fun _ => points := by
  have rows : asColumn (points.toGrid.map RealCell.double) =
      points.toGrid.map RealCell.double := rfl
  have block : asColumn (⟨.double, points.toGrid.map .double⟩ : RealTable).grid =
      points.toGrid := by
    rw [grid_of_doubles]
    rfl
  rw [checkPoints_of_block (checkArray_ofGrid _ _) block, rows, checkFinite_doubles]

/-- It passes if it is finite. -/
theorem checkPoints_toGrid_iff {points : PointSet Float} (parameter : String) :
    checkPoints (.ofGrid points.toGrid) parameter = .ok points ↔ points.IsFinite := by
  rw [checkPoints_toGrid, PointSet.isFinite_iff]
  refine ⟨fun passed => ?_, fun finite => ?_⟩
  · cases checked : checkFinite points.toGrid parameter with
    | error e =>
        rw [checked] at passed
        cases passed
    | ok => exact finite_of_checkFinite checked
  · rw [checkFinite_of_finite finite]
    rfl

/-! ## Bounds -/

/-- All entries of bounds are finite. -/
structure Bounds.IsFinite {dim : ℕ} (b : Bounds Float dim) : Prop where
  low : ∀ x ∈ b.low, x.isFinite = true
  high : ∀ x ∈ b.high, x.isFinite = true

/-- A bound that passes is finite. -/
theorem finite_of_checkBound {v : Value} {dim : ℕ} {parameter : String}
    {entries : { entries : List Float // entries.length = dim }}
    (checked : checkBound v dim parameter = .ok entries) :
    ∀ x ∈ entries.val, x.isFinite = true := by
  obtain ⟨table, -, checked⟩ := exists_of_bind_eq_ok checked
  obtain ⟨_, -, checked⟩ := exists_of_bind_eq_ok checked
  obtain ⟨_, finite, checked⟩ := exists_of_bind_eq_ok checked
  have values := finite_of_checkFinite finite
  split at checked
  · cases checked
    exact values
  · split at checked
    · next entry single =>
        cases checked
        intro x mem
        rw [List.eq_of_mem_replicate mem]
        exact values entry (single ▸ List.mem_cons_self)
    · cases checked

/-- A finite bound with as many entries as there are axes passes as it stands. -/
theorem checkBound_ofPoint {entries : List Float} {dim : ℕ} (fits : entries.length = dim)
    (finite : ∀ x ∈ entries, x.isFinite = true) (parameter : String) :
    checkBound (.ofGrid (.ofPoint entries)) dim parameter = .ok ⟨entries, fits⟩ := by
  have axes : checkAxes (asFlat (.ofPoint entries)) 1 parameter = .ok () := rfl
  have passed : checkFinite (asFlat (.ofPoint entries)) parameter = .ok () :=
    checkFinite_of_finite finite parameter
  have length : (asFlat (.ofPoint entries)).values.length = dim := fits
  simp only [checkBound, checkArray_ofGrid, grid_of_doubles, Bind.bind, Except.bind, axes, passed,
    dif_pos length]
  rfl

/-- A bound that is an array of entries is set if it has some. -/
theorem isUnset_ofPoint {entries : List Float} (some_entries : 0 < entries.length) :
    isUnset (.ofGrid (.ofPoint entries)) = .ok false := by
  have not_zero : ¬1 * entries.length = 0 := by omega
  calc isUnset (.ofGrid (.ofPoint entries))
      = .ok (decide (1 * entries.length = 0)) := rfl
    _ = .ok false := by rw [decide_eq_false not_zero]

/-- Bounds that pass are finite. -/
theorem isFinite_of_checkBounds {minima maxima : Value} {dim : ℕ} {bounds : Bounds Float dim}
    (checked : checkBounds minima maxima dim = .ok (some bounds)) : bounds.IsFinite := by
  obtain ⟨lowUnset, -, checked⟩ := exists_of_bind_eq_ok checked
  obtain ⟨highUnset, -, checked⟩ := exists_of_bind_eq_ok checked
  split at checked
  · cases checked
  · split at checked
    · cases checked
    · split at checked
      · cases checked
      · obtain ⟨low, low_checked, checked⟩ := exists_of_bind_eq_ok checked
        obtain ⟨high, high_checked, checked⟩ := exists_of_bind_eq_ok checked
        cases checked
        exact ⟨finite_of_checkBound low_checked, finite_of_checkBound high_checked⟩

/-- Finite bounds pass as they stand. -/
theorem checkBounds_ofPoint {dim : ℕ} (dim_pos : 0 < dim) {bounds : Bounds Float dim}
    (finite : bounds.IsFinite) :
    checkBounds (.ofGrid (.ofPoint bounds.low)) (.ofGrid (.ofPoint bounds.high)) dim =
      .ok (some bounds) := by
  have low_set := isUnset_ofPoint (dim_pos.trans_eq bounds.low_length.symm)
  have high_set := isUnset_ofPoint (dim_pos.trans_eq bounds.high_length.symm)
  rw [checkBounds, low_set, high_set]
  simp only [Bind.bind, Except.bind, Bool.false_and, Bool.false_eq_true, if_false,
    checkBound_ofPoint bounds.low_length finite.low,
    checkBound_ofPoint bounds.high_length finite.high]
  rfl

/-! ## Designs -/

namespace Design

/-- Where the data of a design and its bounds come from. -/
theorem checks_of_ofSettings {s : Settings} {d : Design Float} (built : ofSettings s = .ok d) :
    checkPoints s.data "data" = .ok d.points ∧
      checkBounds s.minima s.maxima d.points.dim = .ok d.bounds := by
  obtain ⟨points, data, built⟩ := exists_of_bind_eq_ok built
  obtain ⟨_, -, built⟩ := exists_of_bind_eq_ok built
  obtain ⟨sampleSize, -, built⟩ := exists_of_bind_eq_ok built
  obtain ⟨repetitions, -, built⟩ := exists_of_bind_eq_ok built
  obtain ⟨k, -, built⟩ := exists_of_bind_eq_ok built
  split at built
  · obtain ⟨bounds, bounded, built⟩ := exists_of_bind_eq_ok built
    obtain ⟨jobs, -, built⟩ := exists_of_bind_eq_ok built
    obtain ⟨seed, -, built⟩ := exists_of_bind_eq_ok built
    cases built
    exact ⟨data, bounded⟩
  · cases built

/-- Values that give the bounds of a design give its box over its data. -/
theorem estimateBox_of_checkBounds {d : Design Float} {minima maxima : Value}
    (checked : checkBounds minima maxima d.points.dim = .ok d.bounds) :
    estimateBox d.points.toGrid minima maxima = d.box := by
  have rows : Grid.cut d.points.points.length (d.points.dim * Grid.sizeOf [])
      d.points.points.flatten = d.points.points := by
    have no_axes : d.points.dim * Grid.sizeOf [] = d.points.dim := Nat.mul_one _
    rw [no_axes, cut_flatten d.points.length_eq]
  rw [estimateBox, PointSet.toGrid, Grid.ofRows]
  dsimp only
  rw [rows, checked, box]
  cases d.bounds <;> rfl

/-- The bounds of a design pass again. -/
theorem checkBounds_toSettings {s : Settings} {d : Design Float} (built : ofSettings s = .ok d) :
    checkBounds d.toSettings.minima d.toSettings.maxima d.points.dim = .ok d.bounds := by
  have bounded := (checks_of_ofSettings built).2
  rw [toSettings]
  cases bounds : d.bounds with
  | none => rfl
  | some b =>
      rw [bounds] at bounded
      exact checkBounds_ofPoint d.points.dim_pos (isFinite_of_checkBounds bounded)

/-- The points of a design are finite unless a number in extended precision among the data that it
was built from lies beyond the doubles. -/
theorem isFinite_points_iff {s : Settings} {d : Design Float} (built : ofSettings s = .ok d) :
    d.points.IsFinite ↔ s.data.FitsDoubles :=
  isFinite_of_checkPoints_iff (checks_of_ofSettings built).1

/-- The box over the data of a design and its bounds is the one of the design. -/
theorem estimateBox_toSettings {s : Settings} {d : Design Float} (built : ofSettings s = .ok d) :
    estimateBox d.points.toGrid d.toSettings.minima d.toSettings.maxima = d.box :=
  estimateBox_of_checkBounds (checkBounds_toSettings built)

end Design

end PointPattern
