/-
# Rectangular data

What is accepted as data is described without the table that the check goes through: rows of one
length whose cells are coordinates. These are integers of a machine word, finite doubles, and truth
values, the latter never alone. Of plain values everything else is refused, and what has been
accepted is read cell by cell.
-/

import PointPattern.Proofs.Double.Fractions
import PointPattern.Proofs.Double.Order
import PointPattern.Proofs.ElementTypes
import PointPattern.Proofs.Rows

namespace PointPattern

open Double (IsNearest)

namespace Value

/-! ## Coordinates -/

/-- Cells from which a coordinate can be read. -/
inductive IsCoordinate : Value → Prop
  | bool (b : Bool) : IsCoordinate (.bool b)
  | int {i : ℤ} (low : -2 ^ 63 ≤ i) (high : i < 2 ^ 64) : IsCoordinate (.int i)
  | real {x : Float} (finite : x.isFinite = true) : IsCoordinate (.real x)

/-- Cells that are coordinates together: truth values only beside numbers. -/
structure AreCoordinates (cells : List Value) : Prop where
  each : ∀ c ∈ cells, c.IsCoordinate
  some_number : ∃ c ∈ cells, ∀ b, c ≠ .bool b

/-- The double that a cell is read as. -/
inductive ReadsAs : Value → Float → Prop
  | bool (b : Bool) : ReadsAs (.bool b) (if b then 1 else 0)
  | int {i : ℤ} {x : Float} (converted : Number.floatOfInt? i = some x) (near : IsNearest x i) :
      ReadsAs (.int i) x
  | real (x : Float) : ReadsAs (.real x) x

variable {v c : Value} {dim : ℕ} {rows : List (List Value)}

theorem IsCell.isPlain_elementType (cell : c.IsCell) : c.elementType.IsPlain := by
  cases cell with
  | null => exact .object
  | bool b => exact .boolean
  | int i =>
      rw [elementType]
      split_ifs
      · exact .signed
      · exact .unsigned
      · exact .object
  | real x => exact .double
  | text s => exact .text _

theorem IsCell.elementType_eq_boolean (cell : c.IsCell) :
    c.elementType = .boolean ↔ ∃ b, c = .bool b := by
  cases cell with
  | int i =>
      rw [elementType]
      split_ifs <;> simp
  | _ => simp [elementType]

/-- Integers count as numbers if they fit a machine word with a sign or one without. -/
theorem countsAsNumber_int {i : ℤ} :
    (int i).elementType.countsAsNumber = true ↔ -2 ^ 63 ≤ i ∧ i < 2 ^ 64 := by
  have signed : (ElementType.signed 64).countsAsNumber = true := rfl
  have unsigned : (ElementType.unsigned 64).countsAsNumber = true := rfl
  have object : ElementType.object.countsAsNumber = false := rfl
  simp only [elementType, Nat.pow_eq, Bool.and_eq_true, decide_eq_true_eq]
  push_cast
  split_ifs <;> simp only [signed, unsigned, object, true_iff, Bool.false_eq_true, false_iff] <;>
    omega

theorem IsCoordinate.countsAsNumber (coordinate : c.IsCoordinate) :
    c.elementType.countsAsNumber = true := by
  cases coordinate with
  | bool b => rfl
  | int low high => exact countsAsNumber_int.2 ⟨low, high⟩
  | real finite => rfl

/-- A coordinate is read as a finite double. -/
theorem IsCoordinate.reads (coordinate : c.IsCoordinate) :
    c.cellToFloat.isFinite = true ∧ c.ReadsAs c.cellToFloat := by
  cases coordinate with
  | bool b =>
      refine ⟨?_, .bool b⟩
      cases b with
      | true => exact Double.real_one.1
      | false => exact Double.real_zero.1
  | int low high =>
      obtain ⟨x, converted, finite, near⟩ := Double.exists_floatOfInt? low high
      simp only [cellToFloat, toReal?, converted]
      exact ⟨finite, .int converted near⟩
  | real finite => exact ⟨finite, .real _⟩

/-- A cell that counts as a number and is read as a finite double is a coordinate. -/
theorem IsCell.isCoordinate (cell : c.IsCell) (number : c.elementType.countsAsNumber = true)
    (finite : c.cellToFloat.isFinite = true) : c.IsCoordinate := by
  cases cell with
  | null => cases number
  | bool b => exact .bool b
  | int i => exact .int (countsAsNumber_int.1 number).1 (countsAsNumber_int.1 number).2
  | real x => exact .real finite
  | text s => cases number

/-! ## Types -/

namespace HasRows

variable (has : v.HasRows dim rows)
include has

theorem tableType_eq : v.tableType = .joinAll (rows.flatten.map elementType) := by
  obtain ⟨-, -, leaves, -⟩ := has.table_eq
  rw [← leaves]
  cases has <;> rfl

theorem isPlain_types : ∀ t ∈ rows.flatten.map elementType, t.IsPlain := by
  intro t mem
  obtain ⟨c, c_mem, rfl⟩ := List.mem_map.1 mem
  exact (has.all_cells c c_mem).isPlain_elementType

theorem isPlain_tableType : v.tableType.IsPlain :=
  has.tableType_eq ▸ ElementType.isPlain_joinAll has.isPlain_types

theorem isNumeric_iff : v.tableType.isNumeric = true ↔
    (∀ c ∈ rows.flatten, c.elementType.countsAsNumber = true) ∧
      ∃ c ∈ rows.flatten, ∀ b, c ≠ .bool b := by
  have some_types : rows.flatten.map elementType ≠ [] := by simpa using has.flatten_ne_nil
  rw [has.tableType_eq, ElementType.isNumeric_joinAll some_types has.isPlain_types]
  simp only [List.mem_map, forall_exists_index, and_imp, forall_apply_eq_imp_iff₂,
    exists_exists_and_eq_and]
  refine and_congr Iff.rfl (exists_congr fun c => and_congr_right fun mem => ?_)
  rw [ne_eq, (has.all_cells c mem).elementType_eq_boolean, not_exists]

omit has in
/-- The point set of the rows. -/
def points (has : v.HasRows dim rows) : PointSet Float where
  dim := dim
  points := rows.map (·.map cellToFloat)
  dim_pos := has.dim_pos
  points_ne_nil := by simpa using has.ne_nil
  length_eq := by
    intro p mem
    obtain ⟨row, row_mem, rfl⟩ := List.mem_map.1 mem
    rw [List.length_map, has.length_eq row row_mem]

theorem toGrid_points :
    has.points.toGrid = ⟨[rows.length, dim], rows.flatten.map cellToFloat⟩ := by
  rw [PointSet.toGrid, points, Grid.ofRows, List.length_map, List.map_flatten]

end HasRows

end Value

/-! ## Data -/

section Data

variable {v : Value} {dim : ℕ} {rows : List (List Value)} {points : PointSet Float}

/-- Elements of plain types are doubles as they are given. -/
theorem toRealCell_of_isPlain {type : ElementType} (plain : type.IsPlain) :
    Value.toRealCell type = fun c => .double c.cellToFloat := by
  funext c
  cases plain <;> rfl

/-- A value with plain elements is read as an array of doubles if it has a shape and a numeric
type. -/
theorem checkArray_eq_ok_iff {table : RealTable} (plain : v.tableType.IsPlain)
    (parameter : String) :
    checkArray v parameter = .ok table ↔
      v.tableType.isNumeric = true ∧ ∃ shape, v.shape? = .ok shape ∧
        table = ⟨.double, Grid.map .double ⟨shape, v.leaves.map Value.cellToFloat⟩⟩ := by
  rw [checkArray, Value.toTable]
  cases v.shape? with
  | error reason => simp [Bind.bind, Except.bind, Except.mapError]
  | ok shape' =>
      simp only [Bind.bind, Except.bind, Pure.pure, Except.pure, Except.mapError,
        toRealCell_of_isPlain plain]
      generalize v.tableType = type at plain ⊢
      cases plain <;> simp [ElementType.isNumeric, Grid.map, Function.comp_def, eq_comm]

/-- Rows of coordinates are accepted. -/
theorem Value.HasRows.checkPoints_eq (has : v.HasRows dim rows)
    (coordinates : Value.AreCoordinates rows.flatten) (parameter : String) :
    checkPoints v parameter = .ok has.points := by
  obtain ⟨shape, read, leaves, column⟩ := has.table_eq
  have numeric : v.tableType.isNumeric = true :=
    has.isNumeric_iff.2 ⟨fun c mem => (coordinates.each c mem).countsAsNumber,
      coordinates.some_number⟩
  have checked := (checkArray_eq_ok_iff has.isPlain_tableType parameter).2
    ⟨numeric, shape, read, rfl⟩
  refine checkPoints_eq_ok_iff.2 ⟨_, checked, ?_, ?_⟩
  · rw [grid_of_doubles, leaves, column, has.toGrid_points]
  · refine List.forall_mem_map.2 (List.forall_mem_map.2 fun c mem => ?_)
    exact (coordinates.each c (leaves ▸ mem)).reads.1

/-- The points of rows of coordinates are read cell by cell. -/
theorem Value.HasRows.reads (has : v.HasRows dim rows)
    (coordinates : Value.AreCoordinates rows.flatten) :
    List.Forall₂ (List.Forall₂ Value.ReadsAs) rows has.points.points := by
  refine List.forall₂_map_right_iff.2 (List.forall₂_same.2 fun row row_mem => ?_)
  refine List.forall₂_map_right_iff.2 (List.forall₂_same.2 fun c mem => ?_)
  exact (coordinates.each c (List.mem_flatten.2 ⟨row, row_mem, mem⟩)).reads.2

theorem shape_of_asColumn {K : Type} {g : Grid K} {n : ℕ} (shape : (asColumn g).shape = [n, dim]) :
    g.shape = [n] ∧ dim = 1 ∨ g.shape = [n, dim] := by
  rw [asColumn] at shape
  split at shape
  · next m one_axis =>
      simp only [List.cons.injEq, and_true] at shape
      exact .inl ⟨shape.1 ▸ one_axis, shape.2.symm⟩
  · exact .inr shape

/-- Plain values hold no numbers in extended precision. -/
theorem Value.HasRows.fitsDoubles (has : v.HasRows dim rows) : v.FitsDoubles := by
  obtain ⟨-, -, leaves, -⟩ := has.table_eq
  intro c mem x wide
  cases has.all_cells c (leaves ▸ mem) <;> cases wide

/-- A plain value that is accepted has rows. -/
theorem exists_hasRows (plain : v.IsPlain) {parameter : String}
    (checked : checkPoints v parameter = .ok points) : ∃ rows, v.HasRows points.dim rows := by
  obtain ⟨table, read, column, -⟩ := checkPoints_eq_ok_iff.1 checked
  obtain ⟨shape, -⟩ := (checkArray_ends v parameter).result read
  obtain ⟨even, outline⟩ := shape_of_shape? shape
  have some_points : 0 < points.points.length := points.size_pos
  rcases shape_of_asColumn (congrArg Grid.shape column) with ⟨one_axis, one⟩ | two_axes
  · obtain ⟨cells, rfl, length, all_cells⟩ :=
      plain.exists_cells_of_shape even (outline.trans one_axis)
    rw [one]
    exact ⟨_, .column (List.length_pos_iff.1 (length ▸ some_points)) all_cells⟩
  · obtain ⟨rows, rfl, length, lengths, all_cells⟩ :=
      plain.exists_rows_of_shape even (outline.trans two_axes)
    exact ⟨rows, .block (List.length_pos_iff.1 (length ▸ some_points)) points.dim_pos lengths
      all_cells⟩

/-- The cells of rows that are accepted are coordinates. -/
theorem Value.HasRows.areCoordinates (has : v.HasRows dim rows) {parameter : String}
    (checked : checkPoints v parameter = .ok points) : Value.AreCoordinates rows.flatten := by
  obtain ⟨table, read, -, finite⟩ := checkPoints_eq_ok_iff.1 checked
  obtain ⟨numeric, shape, -, rfl⟩ := (checkArray_eq_ok_iff has.isPlain_tableType parameter).1 read
  obtain ⟨-, -, leaves, -⟩ := has.table_eq
  have finite : ∀ c ∈ v.leaves, c.cellToFloat.isFinite = true :=
    List.forall_mem_map.1 (List.forall_mem_map.1 finite)
  rw [leaves] at finite
  obtain ⟨numbers, some_number⟩ := has.isNumeric_iff.1 numeric
  exact ⟨fun c mem => (has.all_cells c mem).isCoordinate (numbers c mem) (finite c mem),
    some_number⟩

/-- Among plain values exactly the rows of coordinates are accepted as data, and these are read
cell by cell. All others are refused as invalid or for their dimensions. What has been accepted is
accepted again and does not change. -/
theorem checkPoints_accepts_rows (plain : v.IsPlain) (parameter : String) :
    ((∃ points, checkPoints v parameter = .ok points) ↔
        ∃ dim rows, v.HasRows dim rows ∧ Value.AreCoordinates rows.flatten) ∧
      (∀ dim rows, v.HasRows dim rows → Value.AreCoordinates rows.flatten →
        ∃ points, checkPoints v parameter = .ok points ∧
          points.size = rows.length ∧ points.dim = dim ∧
          List.Forall₂ (List.Forall₂ Value.ReadsAs) rows points.points) ∧
      (∀ e, checkPoints v parameter = .error e → e.IsDataRefusal) ∧
      ∀ points, checkPoints v parameter = .ok points →
        checkPoints (.ofGrid points.toGrid) parameter = .ok points := by
  have accepts : ∀ dim rows, v.HasRows dim rows → Value.AreCoordinates rows.flatten →
      ∃ points, checkPoints v parameter = .ok points ∧
        points.size = rows.length ∧ points.dim = dim ∧
        List.Forall₂ (List.Forall₂ Value.ReadsAs) rows points.points :=
    fun dim rows has coordinates => ⟨has.points, has.checkPoints_eq coordinates parameter,
      List.length_map _, rfl, has.reads coordinates⟩
  refine ⟨⟨?_, ?_⟩, accepts, ?_, ?_⟩
  · rintro ⟨points, checked⟩
    obtain ⟨rows, has⟩ := exists_hasRows plain checked
    exact ⟨points.dim, rows, has, has.areCoordinates checked⟩
  · rintro ⟨dim, rows, has, coordinates⟩
    obtain ⟨points, checked, -⟩ := accepts dim rows has coordinates
    exact ⟨points, checked⟩
  · exact fun e refused => (checkPoints_ends plain.isFilled parameter).failure refused
  · intro points checked
    obtain ⟨rows, has⟩ := exists_hasRows plain checked
    exact (checkPoints_toGrid_iff parameter).2
      ((isFinite_of_checkPoints_iff checked).2 has.fitsDoubles)

/-- Two rows with a truth value, the least integer beyond the words with a sign, a negative integer
and a fraction. -/
def mixedRows : List (List Value) :=
  [[.bool true, .int (2 ^ 63)], [.int (-1), .real Scalar.half]]

theorem hasRows_mixedRows : (Value.list (mixedRows.map .list)).HasRows 2 mixedRows := by
  refine .block (List.cons_ne_nil _ _) (by decide) (by simp [mixedRows]) ?_
  simp only [mixedRows, List.mem_cons, List.not_mem_nil, or_false, forall_eq_or_imp, forall_eq]
  exact ⟨⟨.bool true, .int _⟩, .int _, .real _⟩

theorem areCoordinates_mixedRows : Value.AreCoordinates mixedRows.flatten := by
  refine ⟨?_, .int (-1), by simp [mixedRows], nofun⟩
  simp only [mixedRows, List.flatten_cons, List.flatten_nil, List.cons_append, List.nil_append,
    List.mem_cons, List.not_mem_nil, or_false, forall_eq_or_imp, forall_eq]
  exact ⟨.bool true, .int (by norm_num) (by norm_num), .int (by norm_num) (by norm_num),
    .real Double.real_half.1⟩

/-- The rows of different kinds are accepted and read cell by cell. Truth values alone are
refused. -/
theorem checkPoints_accepts_rows_mixedRows :
    (∃ points, checkPoints (.list (mixedRows.map .list)) "data" = .ok points ∧
      points.size = 2 ∧ points.dim = 2 ∧
      List.Forall₂ (List.Forall₂ Value.ReadsAs) mixedRows points.points) ∧
    ¬∃ points, checkPoints (.list [.bool true, .bool false]) "data" = .ok points := by
  have truths : ∀ c ∈ [Value.bool true, .bool false], c.IsCell := by
    simpa using ⟨Value.IsCell.bool true, Value.IsCell.bool false⟩
  refine ⟨(checkPoints_accepts_rows hasRows_mixedRows.isPlain "data").2.1 2 mixedRows
    hasRows_mixedRows areCoordinates_mixedRows, ?_⟩
  rw [(checkPoints_accepts_rows (.list fun c mem => .cell (truths c mem)) "data").1]
  rintro ⟨dim, rows, has, -, c, mem, number⟩
  have leaves : [Value.bool true, .bool false] = rows.flatten := by
    obtain ⟨-, -, leaves, -⟩ := has.table_eq
    exact leaves
  rw [← leaves] at mem
  simp only [List.mem_cons, List.not_mem_nil, or_false] at mem
  rcases mem with rfl | rfl
  · exact number true rfl
  · exact number false rfl

end Data

end PointPattern
