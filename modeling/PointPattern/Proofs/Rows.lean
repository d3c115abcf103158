/-
# Plain values and their rows

Data may be handed in as numbers, truth values, text, nothing, and sequences of these nested to any
depth. A sequence of cells stands for rows of one cell each, and a sequence of rows for these, if
they have one positive length. This is said without the outline that finds the shape of a value:
the outline has one axis just for sequences of cells and two just for sequences of such sequences,
and the elements are those of the rows.
-/

import PointPattern.Proofs.Accepted
import PointPattern.Proofs.Refusals

namespace PointPattern

namespace Value

/-! ## Plain values -/

/-- Plain values that are not sequences. -/
inductive IsCell : Value → Prop
  | null : IsCell .null
  | bool (b : Bool) : IsCell (.bool b)
  | int (i : ℤ) : IsCell (.int i)
  | real (x : Float) : IsCell (.real x)
  | text (s : String) : IsCell (.text s)

/-- Cells, and sequences of plain values nested to any depth. -/
inductive IsPlain : Value → Prop
  | cell {v : Value} (cell : v.IsCell) : IsPlain v
  | list {items : List Value} (plain : ∀ item ∈ items, IsPlain item) : IsPlain (.list items)

/-- A sequence of cells denotes rows of one cell each, a sequence of sequences of cells denotes
these, if they have one positive length. -/
inductive HasRows : Value → ℕ → List (List Value) → Prop
  | column {cells : List Value} (some_cells : cells ≠ []) (all_cells : ∀ c ∈ cells, c.IsCell) :
      HasRows (.list cells) 1 (cells.map fun c => [c])
  | block {rows : List (List Value)} {dim : ℕ} (some_rows : rows ≠ []) (dim_pos : 1 ≤ dim)
      (lengths : ∀ row ∈ rows, row.length = dim) (all_cells : ∀ row ∈ rows, ∀ c ∈ row, c.IsCell) :
      HasRows (.list (rows.map .list)) dim rows

variable {v : Value} {cells : List Value} {dim depth : ℕ} {rows : List (List Value)}

theorem IsPlain.isFilled (plain : v.IsPlain) : v.IsFilled := by
  induction plain with
  | cell cell => cases cell <;> trivial
  | @list items plain filled =>
      rw [IsFilled]
      clear plain
      induction items with
      | nil => trivial
      | cons v rest ih =>
          exact ⟨filled v List.mem_cons_self, ih fun w mem => filled w (List.mem_cons_of_mem v mem)⟩

/-! ## Shapes -/

theorem IsCell.outline_eq (cell : v.IsCell) (depth : ℕ) : v.outline depth = ⟨[], false⟩ := by
  cases cell <;> rfl

theorem IsCell.leaves_eq (cell : v.IsCell) : v.leaves = [v] := by
  cases cell <;> rfl

theorem leavesOf_cells (all_cells : ∀ c ∈ cells, c.IsCell) : leavesOf cells = cells := by
  induction cells with
  | nil => rfl
  | cons c rest ih =>
      rw [leavesOf, (all_cells c List.mem_cons_self).leaves_eq, List.singleton_append,
        ih fun d mem => all_cells d (List.mem_cons_of_mem c mem)]

theorem leavesOf_rows (all_cells : ∀ row ∈ rows, ∀ c ∈ row, c.IsCell) :
    leavesOf (rows.map list) = rows.flatten := by
  induction rows with
  | nil => rfl
  | cons row rest ih =>
      rw [List.map_cons, leavesOf, leaves, leavesOf_cells (all_cells row List.mem_cons_self),
        ih fun other mem => all_cells other (List.mem_cons_of_mem row mem), List.flatten_cons]

/-- Items of one shape make a sequence with one axis more. -/
theorem outline_list {items : List Value} {shape : List ℕ} (not_deep : depth ≠ nestingLimit)
    (some_items : items ≠ []) (agree : ∀ item ∈ items, item.outline (depth + 1) = ⟨shape, false⟩) :
    (list items).outline depth = ⟨items.length :: shape, false⟩ := by
  have outlines_agree : ∀ o ∈ outlines (depth + 1) items, o = ⟨shape, false⟩ := by
    rw [outlines_eq_map]
    intro o mem
    obtain ⟨item, item_mem, rfl⟩ := List.mem_map.1 mem
    exact agree item item_mem
  have some_outlines : outlines (depth + 1) items ≠ [] := by
    rw [outlines_eq_map]
    simpa using some_items
  rw [outline, if_neg not_deep, Outline.ofItems_of_agree some_outlines outlines_agree,
    length_outlines]

/-- A sequence that is not ragged has one axis more than its items, which agree on their shape. -/
theorem exists_shape_of_even {items : List Value}
    (even : ((list items).outline depth).ragged = false) :
    ∃ shape, ((list items).outline depth).shape = items.length :: shape ∧
      ∀ item ∈ items, (item.outline (depth + 1)).ragged = false ∧
        (item.outline (depth + 1)).shape = shape := by
  rw [outline] at even ⊢
  split at even
  · cases even
  · next deeper =>
      obtain ⟨shape, axes, agree⟩ := Outline.exists_shape_of_even even
      refine ⟨shape, ?_, fun item mem => agree _ ?_⟩
      · rw [if_neg deeper, axes, length_outlines]
      · rw [outlines_eq_map]
        exact List.mem_map_of_mem mem

/-- Only cells have no axes. -/
theorem IsPlain.isCell_of_shape (plain : v.IsPlain) (even : (v.outline depth).ragged = false)
    (no_axes : (v.outline depth).shape = []) : v.IsCell := by
  cases plain with
  | cell cell => exact cell
  | list plain =>
      obtain ⟨shape, axes, -⟩ := exists_shape_of_even even
      rw [axes] at no_axes
      cases no_axes

/-- Only sequences of cells have one axis. -/
theorem IsPlain.exists_cells_of_shape (plain : v.IsPlain)
    (even : (v.outline depth).ragged = false) {n : ℕ} (one_axis : (v.outline depth).shape = [n]) :
    ∃ cells, v = .list cells ∧ cells.length = n ∧ ∀ c ∈ cells, c.IsCell := by
  cases plain with
  | cell cell =>
      rw [cell.outline_eq] at one_axis
      cases one_axis
  | @list items plain =>
      obtain ⟨shape, axes, agree⟩ := exists_shape_of_even even
      rw [axes, List.cons.injEq] at one_axis
      obtain ⟨length, rfl⟩ := one_axis
      exact ⟨items, rfl, length, fun c mem =>
        (plain c mem).isCell_of_shape (agree c mem).1 (agree c mem).2⟩

/-- Only sequences of sequences of cells have two axes. -/
theorem IsPlain.exists_rows_of_shape (plain : v.IsPlain)
    (even : (v.outline depth).ragged = false) {n dim : ℕ}
    (two_axes : (v.outline depth).shape = [n, dim]) :
    ∃ rows : List (List Value), v = .list (rows.map .list) ∧ rows.length = n ∧
      (∀ row ∈ rows, row.length = dim) ∧ ∀ row ∈ rows, ∀ c ∈ row, c.IsCell := by
  cases plain with
  | cell cell =>
      rw [cell.outline_eq] at two_axes
      cases two_axes
  | @list items plain =>
      obtain ⟨shape, axes, agree⟩ := exists_shape_of_even even
      rw [axes, List.cons.injEq] at two_axes
      obtain ⟨length, rfl⟩ := two_axes
      have row (item : Value) (mem : item ∈ items) :=
        (plain item mem).exists_cells_of_shape (agree item mem).1 (agree item mem).2
      obtain ⟨rows, rfl⟩ : items ∈ Set.range (List.map Value.list) := by
        rw [Set.range_list_map]
        intro item mem
        obtain ⟨cells, rfl, -⟩ := row item mem
        exact ⟨cells, rfl⟩
      have cells (r : List Value) (mem : r ∈ rows) : r.length = dim ∧ ∀ c ∈ r, c.IsCell := by
        obtain ⟨cells, same, fits⟩ := row (.list r) (List.mem_map_of_mem mem)
        rwa [← Value.list.inj same] at fits
      exact ⟨rows, rfl, by rwa [List.length_map] at length, fun r mem => (cells r mem).1,
        fun r mem => (cells r mem).2⟩

theorem shape?_of_outline {shape : List ℕ} (outline : v.outline 0 = ⟨shape, false⟩) :
    v.shape? = .ok shape := by
  rw [shape?, outline]
  rfl

/-! ## Rows -/

namespace HasRows

variable (has : v.HasRows dim rows)
include has

theorem dim_pos : 0 < dim := by
  cases has with
  | column => exact Nat.one_pos
  | block _ dim_pos => exact dim_pos

theorem ne_nil : rows ≠ [] := by
  cases has with
  | column some_cells => simpa using some_cells
  | block some_rows => exact some_rows

theorem length_eq : ∀ row ∈ rows, row.length = dim := by
  cases has with
  | column => simp
  | block _ _ lengths => exact lengths

theorem all_cells : ∀ c ∈ rows.flatten, c.IsCell := by
  cases has with
  | column _ all_cells => simpa using all_cells
  | block _ _ _ all_cells =>
      intro c mem
      obtain ⟨row, row_mem, mem⟩ := List.mem_flatten.1 mem
      exact all_cells row row_mem c mem

theorem flatten_ne_nil : rows.flatten ≠ [] := by
  have size := length_flatten_of_length has.length_eq
  have rows_pos := List.length_pos_iff.2 has.ne_nil
  exact List.length_pos_iff.1 (size ▸ Nat.mul_pos rows_pos has.dim_pos)

theorem isPlain : v.IsPlain := by
  cases has with
  | column _ all_cells => exact .list fun c mem => .cell (all_cells c mem)
  | block _ _ _ all_cells =>
      refine .list fun item item_mem => ?_
      obtain ⟨row, row_mem, rfl⟩ := List.mem_map.1 item_mem
      exact .list fun c mem => .cell (all_cells row row_mem c mem)

/-- The shape and the elements of the table, once a single axis counts as a column. -/
theorem table_eq : ∃ shape, v.shape? = .ok shape ∧ v.leaves = rows.flatten ∧
    ∀ values : List Float, asColumn ⟨shape, values⟩ = ⟨[rows.length, dim], values⟩ := by
  cases has with
  | column some_cells all_cells =>
      refine ⟨_, shape?_of_outline (outline_list (by decide) some_cells
        fun c mem => (all_cells c mem).outline_eq _), ?_, fun values => ?_⟩
      · rw [leaves, leavesOf_cells all_cells, ← List.flatMap_def, List.flatMap_singleton']
      · rw [asColumn, List.length_map]
  | block some_rows dim_pos lengths all_cells =>
      have row_outline : ∀ item ∈ rows.map list, item.outline 1 = ⟨[dim], false⟩ := by
        intro item mem
        obtain ⟨row, row_mem, rfl⟩ := List.mem_map.1 mem
        have some_cells : row ≠ [] := List.length_pos_iff.1 (lengths row row_mem ▸ dim_pos)
        rw [← lengths row row_mem]
        exact outline_list (by decide) some_cells fun c mem =>
          (all_cells row row_mem c mem).outline_eq _
      refine ⟨_, shape?_of_outline (outline_list (by decide) (by simpa using some_rows)
        row_outline), ?_, fun values => ?_⟩
      · rw [leaves, leavesOf_rows all_cells]
      · rw [asColumn, List.length_map]

end HasRows

end Value

end PointPattern
