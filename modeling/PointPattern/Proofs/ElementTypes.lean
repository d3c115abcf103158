/-
# The common type of plain elements

Plain elements are truth values, integers, doubles, text and what is nothing of these. Their types
are joined pair by pair. A join holds numbers or truth values only if both types do, and it is the
type of truth values only if both are. So the type of many elements tells about each of them,
whatever their order.
-/

import PointPattern.Value.Layout
import Mathlib.Data.Nat.Notation

namespace PointPattern.ElementType

/-- The types of plain elements. -/
inductive IsPlain : ElementType → Prop
  | boolean : IsPlain .boolean
  | signed : IsPlain (.signed 64)
  | unsigned : IsPlain (.unsigned 64)
  | double : IsPlain .double
  | text (width : ℕ) : IsPlain (.text width)
  | object : IsPlain .object

/-- Whether the elements of a type are numbers or truth values. -/
def countsAsNumber (t : ElementType) : Bool := t.isNumeric || t = .boolean

variable {s t : ElementType} {types : List ElementType}

theorem IsPlain.join (left : s.IsPlain) (right : t.IsPlain) : (s.join t).IsPlain := by
  cases left <;> cases right <;> constructor

theorem countsAsNumber_join (left : s.IsPlain) (right : t.IsPlain) :
    (s.join t).countsAsNumber = true ↔ s.countsAsNumber = true ∧ t.countsAsNumber = true := by
  cases left <;> cases right <;> simp [ElementType.join, countsAsNumber, isNumeric]

theorem join_eq_boolean (left : s.IsPlain) (right : t.IsPlain) :
    s.join t = .boolean ↔ s = .boolean ∧ t = .boolean := by
  cases left <;> cases right <;> simp [ElementType.join]

theorem isPlain_foldl_join (first : s.IsPlain) (rest : ∀ t ∈ types, t.IsPlain) :
    (types.foldl join s).IsPlain := by
  induction types generalizing s with
  | nil => exact first
  | cons t types ih =>
      exact ih (first.join (rest t List.mem_cons_self)) fun u mem =>
        rest u (List.mem_cons_of_mem t mem)

section Join

variable {p : ElementType → Prop}
variable (both : ∀ {s t : ElementType}, s.IsPlain → t.IsPlain → (p (s.join t) ↔ p s ∧ p t))
include both

/-- What a join of two types has only if both have it, a join of many has only if all do. -/
theorem foldl_join_iff (first : s.IsPlain) (rest : ∀ t ∈ types, t.IsPlain) :
    p (types.foldl join s) ↔ p s ∧ ∀ t ∈ types, p t := by
  induction types generalizing s with
  | nil => simp
  | cons t types ih =>
      have second := rest t List.mem_cons_self
      rw [List.foldl_cons, List.forall_mem_cons, ← and_assoc, ← both first second]
      exact ih (first.join second) fun u mem => rest u (List.mem_cons_of_mem t mem)

/-- The same of the type of a sequence, if text never has it. -/
theorem joinAll_iff (no_text : ∀ width, ¬p (.text width)) (some_types : types ≠ [])
    (plain : ∀ t ∈ types, t.IsPlain) : p (joinAll types) ↔ ∀ t ∈ types, p t := by
  cases types with
  | nil => exact absurd rfl some_types
  | cons s types =>
      have joined := foldl_join_iff both (plain s List.mem_cons_self) fun t mem =>
        plain t (List.mem_cons_of_mem s mem)
      rw [List.forall_mem_cons, ← joined, joinAll]
      split
      · next width text =>
          rw [text]
          exact iff_of_false (no_text _) (no_text _)
      · rfl

end Join

theorem isPlain_joinAll (plain : ∀ t ∈ types, t.IsPlain) : (joinAll types).IsPlain := by
  cases types with
  | nil => exact .double
  | cons s types =>
      have joined := isPlain_foldl_join (plain s List.mem_cons_self) fun t mem =>
        plain t (List.mem_cons_of_mem s mem)
      rw [joinAll]
      split
      · exact .text _
      · exact joined

/-- Elements have a numeric type if each is a number or a truth value, and not all are truth
values. -/
theorem isNumeric_joinAll (some_types : types ≠ []) (plain : ∀ t ∈ types, t.IsPlain) :
    (joinAll types).isNumeric = true ↔
      (∀ t ∈ types, t.countsAsNumber = true) ∧ ∃ t ∈ types, t ≠ .boolean := by
  have numeric : (joinAll types).isNumeric = true ↔
      (joinAll types).countsAsNumber = true ∧ joinAll types ≠ .boolean := by
    cases joinAll types <;> simp [countsAsNumber, isNumeric]
  have each := joinAll_iff (p := fun t => t.countsAsNumber = true) countsAsNumber_join
    (fun width => by simp [countsAsNumber, isNumeric]) some_types plain
  have all_truth := joinAll_iff (p := fun t => t = .boolean) join_eq_boolean
    (fun width => by simp) some_types plain
  rw [numeric, each, ne_eq, all_truth]
  simp

end PointPattern.ElementType
