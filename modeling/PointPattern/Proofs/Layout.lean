/-
# Tables are filled

The outline of a nested sequence says on which shape its parts agree. If no part goes beyond it,
the sequence has as many elements as the shape says: this is so on every level, and the levels are
put together by counting. Only an array can come with a shape that does not fit its cells.
-/

import PointPattern.Value.Layout
import Mathlib.Algebra.BigOperators.Group.List.Basic

namespace PointPattern

/-! ## Shapes -/

theorem Grid.sizeOf_cons (n : ℕ) (shape : List ℕ) : sizeOf (n :: shape) = n * sizeOf shape := by
  have pulled (shape : List ℕ) (start : ℕ) :
      shape.foldl (· * ·) start = start * shape.foldl (· * ·) 1 := by
    induction shape generalizing start with
    | nil => exact (Nat.mul_one start).symm
    | cons m rest ih => rw [List.foldl_cons, List.foldl_cons, ih, ih (1 * m), Nat.one_mul,
        Nat.mul_assoc]
  rw [sizeOf, List.foldl_cons, Nat.one_mul, pulled shape n, sizeOf]

/-- The items of a sequence that is not ragged have one shape, and the sequence has one axis
more. -/
theorem Outline.exists_shape_of_even {items : List Outline}
    (even : (ofItems items).ragged = false) :
    ∃ shape, (ofItems items).shape = items.length :: shape ∧
      ∀ item ∈ items, item.ragged = false ∧ item.shape = shape := by
  cases items with
  | nil => exact ⟨[], rfl, nofun⟩
  | cons first rest =>
      refine ⟨_, rfl, fun item mem => ?_⟩
      have agrees := List.any_eq_false.1 even item mem
      simpa using agrees

theorem sharedPrefix_self (shape : List ℕ) : sharedPrefix shape shape = shape := by
  induction shape with
  | nil => rfl
  | cons n rest ih => rw [sharedPrefix, if_pos rfl, ih]

/-- Shapes that are all the same share all of it. -/
theorem foldl_sharedPrefix {items : List Outline} {shape : List ℕ}
    (agree : ∀ item ∈ items, item.shape = shape) :
    items.foldl (fun shape item => sharedPrefix shape item.shape) shape = shape := by
  induction items with
  | nil => rfl
  | cons item rest ih =>
      rw [List.foldl_cons, agree item List.mem_cons_self, sharedPrefix_self]
      exact ih fun other mem => agree other (List.mem_cons_of_mem item mem)

/-- Items of one shape make a sequence that is not ragged, with one axis more. -/
theorem Outline.ofItems_of_agree {items : List Outline} {shape : List ℕ} (some_items : items ≠ [])
    (agree : ∀ item ∈ items, item = ⟨shape, false⟩) :
    ofItems items = ⟨items.length :: shape, false⟩ := by
  cases items with
  | nil => exact absurd rfl some_items
  | cons first rest =>
      have head : first = ⟨shape, false⟩ := agree first List.mem_cons_self
      have shared : rest.foldl (fun shape item => sharedPrefix shape item.shape) first.shape =
          shape := by
        rw [head]
        exact foldl_sharedPrefix fun item mem => by rw [agree item (List.mem_cons_of_mem first mem)]
      have even : ((first :: rest).any fun item => item.ragged || item.shape != shape) = false := by
        refine List.any_eq_false.2 fun item mem => ?_
        simp [agree item mem]
      simp only [ofItems, shared, even, List.length_cons]

namespace Value

/-! ## Filled values -/

mutual

/-- Whether all arrays in a value have as many cells as their shapes say. -/
def IsFilled : Value → Prop
  | list items => AllFilled items
  | tuple items => AllFilled items
  | array _ shape cells => cells.length = Grid.sizeOf shape
  | _ => True

/-- The same of several values. -/
def AllFilled : List Value → Prop
  | [] => True
  | v :: rest => v.IsFilled ∧ AllFilled rest

end

theorem outlines_eq_map (depth : ℕ) (items : List Value) :
    outlines depth items = items.map (outline depth) := by
  induction items with
  | nil => rfl
  | cons v rest ih => rw [outlines, List.map_cons, ih]

theorem length_outlines (depth : ℕ) (items : List Value) :
    (outlines depth items).length = items.length := by
  rw [outlines_eq_map, List.length_map]

theorem length_frameCells (columns : List (String × Value)) :
    (frameCells columns).length = rowCount columns * columns.length := by
  rw [frameCells, List.length_flatMap]
  simp

mutual

/-- A value that is not ragged has as many elements as its shape says. -/
theorem length_leaves {v : Value} (filled : v.IsFilled) {depth : ℕ}
    (even : (v.outline depth).ragged = false) :
    v.leaves.length = Grid.sizeOf (v.outline depth).shape := by
  cases v with
  | list items | tuple items =>
      rw [outline] at even ⊢
      split at even
      · cases even
      · next deeper =>
          obtain ⟨shape, axes, agree⟩ := Outline.exists_shape_of_even even
          rw [if_neg deeper, leaves, axes, Grid.sizeOf_cons, length_outlines]
          exact length_leavesOf filled agree
  | array type shape cells =>
      rw [leaves, List.length_map]
      exact filled
  | series column => exact (Nat.one_mul _).symm
  | frame columns =>
      rw [leaves, length_frameCells, outline, Grid.sizeOf_cons, Grid.sizeOf_cons]
      exact congrArg _ (Nat.mul_one _).symm
  | _ => rfl

/-- Values of one shape have as many elements as so many values of the shape. -/
theorem length_leavesOf {items : List Value} (filled : AllFilled items) {depth : ℕ}
    {shape : List ℕ}
    (agree : ∀ item ∈ outlines depth items, item.ragged = false ∧ item.shape = shape) :
    (leavesOf items).length = items.length * Grid.sizeOf shape := by
  cases items with
  | nil => exact (Nat.zero_mul _).symm
  | cons v rest =>
      obtain ⟨even, rfl⟩ := agree _ List.mem_cons_self
      have first := length_leaves filled.1 even
      have others := length_leavesOf filled.2 fun item mem =>
        agree item (List.mem_cons_of_mem _ mem)
      rw [leavesOf, List.length_append, first, others, List.length_cons, Nat.succ_mul,
        Nat.add_comm]

end

end Value

end PointPattern
