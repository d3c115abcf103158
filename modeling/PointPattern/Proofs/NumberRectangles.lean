/-
# Numbers in rectangles

A number, and sequences of numbers nested in a rectangle, have a shape: the lengths of the sequences
on each level. Unless they are nested too deeply they are read as an array of this shape. Only
numbers and lists of numbers have at most one axis.
-/

import PointPattern.Proofs.Rectangular

namespace PointPattern.Value

/-! ## Shapes -/

/-- Integers of a machine word, and doubles, finite or not. -/
inductive IsNumber : Value → Prop
  | int {i : ℤ} (low : -2 ^ 63 ≤ i) (high : i < 2 ^ 64) : IsNumber (.int i)
  | real (x : Float) : IsNumber (.real x)

/-- A number, or a sequence of parts of one shape. -/
inductive HasShape : Value → List ℕ → Prop
  | number {v : Value} (number : v.IsNumber) : HasShape v []
  | empty : HasShape (.list []) [0]
  | list {items : List Value} {shape : List ℕ} (some_items : items ≠ [])
      (agree : ∀ item ∈ items, HasShape item shape) :
      HasShape (.list items) (items.length :: shape)

/-- A number, or a list of numbers. -/
inductive IsFlat : Value → List Value → Prop
  | number {v : Value} (number : v.IsNumber) : IsFlat v [v]
  | list {cells : List Value} (numbers : ∀ c ∈ cells, c.IsNumber) : IsFlat (.list cells) cells

variable {v c : Value} {cells : List Value} {shape : List ℕ} {x : Float}

theorem IsNumber.isCell (number : c.IsNumber) : c.IsCell := by
  cases number with
  | int => exact .int _
  | real x => exact .real x

theorem IsNumber.countsAsNumber (number : c.IsNumber) : c.elementType.countsAsNumber = true := by
  cases number with
  | int low high => exact countsAsNumber_int.2 ⟨low, high⟩
  | real x => rfl

theorem IsNumber.not_boolean (number : c.IsNumber) : c.elementType ≠ .boolean := by
  rw [ne_eq, number.isCell.elementType_eq_boolean]
  rintro ⟨b, rfl⟩
  cases number

theorem IsNumber.isCoordinate_iff (number : c.IsNumber) :
    c.IsCoordinate ↔ c.cellToFloat.isFinite = true :=
  ⟨fun coordinate => coordinate.reads.1,
    fun finite => number.isCell.isCoordinate number.countsAsNumber finite⟩

/-- A cell is read as one double. -/
theorem ReadsAs.cellToFloat_eq (reads : c.ReadsAs x) : c.cellToFloat = x := by
  cases reads with
  | bool b => cases b <;> rfl
  | int converted near => simp only [cellToFloat, toReal?, converted]
  | real x => rfl

theorem leavesOf_eq_flatMap (items : List Value) : leavesOf items = items.flatMap leaves := by
  induction items with
  | nil => rfl
  | cons v rest ih => rw [leavesOf, List.flatMap_cons, ih]

theorem HasShape.isNumber_of_mem (has : v.HasShape shape) : ∀ c ∈ v.leaves, c.IsNumber := by
  induction has with
  | @number v number =>
      rw [number.isCell.leaves_eq]
      simpa using number
  | empty => exact fun c mem => by cases mem
  | list some_items agree ih =>
      intro c mem
      rw [leaves, leavesOf_eq_flatMap, List.mem_flatMap] at mem
      obtain ⟨item, item_mem, mem⟩ := mem
      exact ih item item_mem c mem

theorem HasShape.isPlain (has : v.HasShape shape) : v.IsPlain := by
  induction has with
  | number number => exact .cell number.isCell
  | empty => exact .list fun c mem => by cases mem
  | list some_items agree ih => exact .list ih

theorem HasShape.outline_eq (has : v.HasShape shape) {depth : ℕ}
    (not_deep : shape.length + depth ≤ nestingLimit) : v.outline depth = ⟨shape, false⟩ := by
  induction has generalizing depth with
  | number number => exact number.isCell.outline_eq depth
  | empty =>
      rw [List.length_singleton] at not_deep
      rw [outline, if_neg (by omega)]
      rfl
  | list some_items agree ih =>
      rw [List.length_cons] at not_deep
      exact outline_list (by omega) some_items fun item mem => ih item mem (by omega)

theorem HasShape.singleton (has : v.HasShape shape) :
    (Value.list [v]).HasShape (1 :: shape) :=
  .list (List.cons_ne_nil v []) (by simpa using has)

/-- The shape of a value is unique. -/
theorem HasShape.unique {shape' : List ℕ} (has : v.HasShape shape) (has' : v.HasShape shape') :
    shape = shape' := by
  induction has generalizing shape' with
  | number number => cases number <;> cases has' <;> rfl
  | empty =>
      cases has' with
      | number number => cases number
      | empty => rfl
      | list some_items => exact absurd rfl some_items
  | @list items shape some_items agree ih =>
      cases has' with
      | number number => cases number
      | empty => exact absurd rfl some_items
      | list _ agree' =>
          obtain ⟨item, mem⟩ := List.exists_mem_of_ne_nil _ some_items
          rw [ih item mem (agree' item mem)]

theorem HasShape.tableType_eq (has : v.HasShape shape) :
    v.tableType = .joinAll (v.leaves.map elementType) := by
  cases has with
  | number number => cases number <;> rfl
  | empty => rfl
  | list => rfl

/-! ## Arrays -/

/-- Numbers in a rectangle are read as an array of doubles of the same shape. -/
theorem HasShape.exists_checkArray (has : v.HasShape shape)
    (not_deep : shape.length ≤ nestingLimit) (some_cells : v.leaves ≠ []) (parameter : String) :
    ∃ table, checkArray v parameter = .ok table ∧
      table.grid = ⟨shape, v.leaves.map cellToFloat⟩ := by
  have numbers := has.isNumber_of_mem
  have plain : ∀ t ∈ v.leaves.map elementType, t.IsPlain := by
    intro t mem
    obtain ⟨c, c_mem, rfl⟩ := List.mem_map.1 mem
    exact (numbers c c_mem).isCell.isPlain_elementType
  have some_types : v.leaves.map elementType ≠ [] := by simpa using some_cells
  have numeric : v.tableType.isNumeric = true := by
    rw [has.tableType_eq, ElementType.isNumeric_joinAll some_types plain]
    obtain ⟨c, mem⟩ := List.exists_mem_of_ne_nil _ some_cells
    refine ⟨fun t t_mem => ?_, c.elementType, List.mem_map_of_mem mem, (numbers c mem).not_boolean⟩
    obtain ⟨d, d_mem, rfl⟩ := List.mem_map.1 t_mem
    exact (numbers d d_mem).countsAsNumber
  have read : v.shape? = .ok shape := shape?_of_outline (has.outline_eq not_deep)
  have plain_type : v.tableType.IsPlain := has.tableType_eq ▸ ElementType.isPlain_joinAll plain
  exact ⟨_, (checkArray_eq_ok_iff plain_type parameter).2 ⟨numeric, shape, read, rfl⟩,
    grid_of_doubles _ _⟩

namespace IsFlat

variable (flat : v.IsFlat cells)
include flat

theorem isNumber_of_mem : ∀ c ∈ cells, c.IsNumber := by
  cases flat with
  | number number => simpa using number
  | list numbers => exact numbers

theorem leaves_eq : v.leaves = cells := by
  cases flat with
  | number number => exact number.isCell.leaves_eq
  | list numbers => exact leavesOf_cells fun c mem => (numbers c mem).isCell

/-- As an array it has one axis, once a number counts as a list of one. -/
theorem exists_checkArray (some_cells : cells ≠ []) (parameter : String) :
    ∃ table, checkArray v parameter = .ok table ∧
      asFlat table.grid = ⟨[cells.length], cells.map cellToFloat⟩ := by
  have leaves := flat.leaves_eq
  have some_leaves : v.leaves ≠ [] := by rwa [leaves]
  cases flat with
  | number number =>
      obtain ⟨table, read, grid⟩ := (HasShape.number number).exists_checkArray (by decide)
        some_leaves parameter
      exact ⟨table, read, by rw [grid, leaves]; rfl⟩
  | list numbers =>
      obtain ⟨table, read, grid⟩ := (HasShape.list some_cells
        fun c mem => .number (numbers c mem)).exists_checkArray (by decide : 1 ≤ nestingLimit)
        some_leaves parameter
      exact ⟨table, read, by rw [grid, leaves]; rfl⟩

/-- All numbers of a flat bound are finite if they are read as finite doubles. -/
theorem coordinates_iff : (∀ c ∈ cells, c.IsCoordinate) ↔
    ∀ x ∈ cells.map cellToFloat, x.isFinite = true := by
  rw [List.forall_mem_map]
  exact forall₂_congr fun c mem => (flat.isNumber_of_mem c mem).isCoordinate_iff

end IsFlat

end PointPattern.Value
