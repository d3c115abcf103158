/-
# The ranking of doubles

Doubles are ranked by their values from negative to positive infinity, and what is not a number
ranks last. So every double has a place in a linear order, and two doubles are tied if they have
the same place: if they are equal in value, as the two zeros are, or both are not a number.
-/

import PointPattern.Proofs.Double.Order
import PointPattern.Proofs.Ranking
import Mathlib.Algebra.Order.Field.Rat
import Mathlib.Data.Prod.Lex

namespace PointPattern.Double

open Float.Model Float.Model.UnpackedFloat

variable {x y : Float} {f g : UnpackedFloat}

/-! ## Places -/

/-- The finite doubles lie between the infinities, and what is not a number lies behind them. -/
def level : UnpackedFloat → ℤ
  | .infinity .negative => -1
  | .infinity .positive => 1
  | .notANumber => 2
  | _ => 0

theorem level_eq_zero_iff : level f = 0 ↔ f.isFinite = true := by
  cases f with
  | notANumber => decide
  | infinity s => cases s <;> decide
  | zero s => exact ⟨fun _ => rfl, fun _ => rfl⟩
  | finite s m e m_pos => exact ⟨fun _ => rfl, fun _ => rfl⟩

theorem value_of_not_isFinite (not_finite : f.isFinite = false) : value f = 0 := by
  cases f with
  | notANumber => rfl
  | infinity s => rfl
  | zero s => cases not_finite
  | finite s m e m_pos => cases not_finite

/-- Comparison with an infinity or with what is not a number looks at the levels alone. -/
theorem compare_of_not_isFinite (not_finite : f.isFinite = false ∨ g.isFinite = false) :
    (f.compare g == some .lt || (g.isNaN && !f.isNaN)) = true ↔ level f < level g := by
  cases f with
  | notANumber =>
      cases g with
      | notANumber => decide
      | infinity t => cases t <;> decide
      | zero t => exact ⟨nofun, nofun⟩
      | finite t n e' n_pos => exact ⟨nofun, nofun⟩
  | infinity s =>
      cases g with
      | notANumber => cases s <;> decide
      | infinity t => cases s <;> cases t <;> decide
      | zero t => cases s <;> simp [level, UnpackedFloat.compare, UnpackedFloat.isNaN]
      | finite t n e' n_pos => cases s <;> simp [level, UnpackedFloat.compare, UnpackedFloat.isNaN]
  | zero s | finite s m e m_pos =>
      cases g with
      | notANumber => simp [level, UnpackedFloat.compare, UnpackedFloat.isNaN]
      | infinity t => cases t <;> simp [level, UnpackedFloat.compare, UnpackedFloat.isNaN]
      | zero t | finite t n e' n_pos => rcases not_finite with absurd | absurd <;> cases absurd

/-- The place of a double in the ranking: its level, and its value among the finite doubles. -/
def place (x : Float) : ℤ ×ₗ ℚ := toLex (level (view x), real x)

theorem before_eq (x y : Float) :
    Scalar.before x y =
      ((view x).compare (view y) == some .lt || ((view y).isNaN && !(view x).isNaN)) := by
  have less : Scalar.less x y = ((view x).compare (view y) == some .lt) := by
    rw [Bool.eq_iff_iff]
    exact decide_eq_true_iff.trans lt_iff_compare
  rw [Scalar.before, less]
  rfl

/-- One double ranks before another if its place is before that of the other. -/
theorem before_iff : Scalar.before x y = true ↔ place x < place y := by
  rw [before_eq, place, place, Prod.Lex.toLex_lt_toLex]
  by_cases finite : (view x).isFinite = true ∧ (view y).isFinite = true
  · obtain ⟨x_finite, y_finite⟩ := finite
    have compared := compare_spec x_finite (canonical_view x) y_finite (canonical_view y)
    rw [compared, isNaN_of_isFinite y_finite, level_eq_zero_iff.2 x_finite,
      level_eq_zero_iff.2 y_finite]
    simp only [Bool.false_and, Bool.or_false, beq_iff_eq, Option.some_inj, compare_lt_iff_lt,
      lt_irrefl, false_or, true_and]
    exact Iff.rfl
  · have not_finite : (view x).isFinite = false ∨ (view y).isFinite = false := by
      simpa [Bool.not_eq_true, or_iff_not_imp_left] using finite
    rw [compare_of_not_isFinite not_finite]
    refine ⟨.inl, fun first => first.resolve_right fun ⟨same, less⟩ => ?_⟩
    -- On one level outside the finite doubles there are no values to compare.
    have same_kind : (view x).isFinite = (view y).isFinite := by
      rw [Bool.eq_iff_iff, ← level_eq_zero_iff, ← level_eq_zero_iff]
      exact Eq.congr_left same
    rw [same_kind, or_self] at not_finite
    dsimp only [real] at less
    rw [value_of_not_isFinite (same_kind.trans not_finite),
      value_of_not_isFinite not_finite] at less
    exact lt_irrefl _ less

/-! ## The ranking -/

theorem not_before_iff : Scalar.before x y = false ↔ place y ≤ place x := by
  rw [← Bool.not_eq_true, before_iff, not_lt]

instance : Scalar.Ranks Float where
  asymm _ _ first := not_before_iff.2 (before_iff.1 first).le
  splits x y z first := by
    rw [before_iff] at first ⊢
    rw [before_iff]
    exact (lt_or_ge (place x) (place y)).imp_right first.trans_le'

/-- Two doubles are tied if they are finite and equal in value, the same infinity, or both not a
number. -/
theorem tied_iff : Scalar.Tied x y ↔ level (view x) = level (view y) ∧ real x = real y := by
  have same_place : Scalar.Tied x y ↔ place x = place y := by
    constructor
    · rintro ⟨not_before, not_after⟩
      exact le_antisymm (not_before_iff.1 not_after) (not_before_iff.1 not_before)
    · intro same
      exact ⟨not_before_iff.2 same.ge, not_before_iff.2 same.le⟩
  rw [same_place, place, place, toLex_inj, Prod.mk.injEq]

end PointPattern.Double
