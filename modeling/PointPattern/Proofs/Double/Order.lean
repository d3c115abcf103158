/-
# The order of doubles

Canonical doubles are compared by their exponents first, and this is the order of their
values. A double that is not negative is a finite number from zero on or positive
infinity; a sum of two such numbers is one again and never less than either.
-/

import PointPattern.Proofs.Double.Arithmetic
import PointPattern.Scalar

namespace PointPattern.Double

open Float.Model Float.Model.UnpackedFloat

variable {x y z : Float} {f g : UnpackedFloat}

/-! ## Comparison -/

theorem magnitude_pos {m : ℕ} (m_pos : 0 < m) (e : ℤ) : (0 : ℚ) < m * 2 ^ e :=
  mul_pos (by exact_mod_cast m_pos) (zpow_pos (by norm_num) e)

/-- A smaller exponent makes a smaller magnitude, because larger exponents come with full
mantissas. -/
theorem magnitude_lt {m n : ℕ} {e e' : ℤ} (small : m < 2 ^ 53) (least : -1074 ≤ e)
    (full : 2 ^ 52 ≤ n ∨ e' = -1074) (less : e < e') : (m : ℚ) * 2 ^ e < n * 2 ^ e' := by
  calc (m : ℚ) * 2 ^ e < 2 ^ (53 + e) := mul_two_zpow_lt small e
    _ ≤ 2 ^ (52 + e') := zpow_le_zpow_right₀ (by norm_num) (by omega)
    _ ≤ n * 2 ^ e' := two_zpow_le_mul (full.resolve_right (by omega)) e'

theorem compare_magnitude {s t : Sign} {m n : ℕ} {e e' : ℤ} {m_pos : 0 < m} {n_pos : 0 < n}
    (f_canonical : Canonical (.finite s m e m_pos))
    (g_canonical : Canonical (.finite t n e' n_pos)) :
    (compare e e').then (compare m n) = compare ((m : ℚ) * 2 ^ e) (n * 2 ^ e') := by
  rcases lt_trichotomy e e' with less | rfl | more
  · rw [compare_lt_iff_lt.2 less, compare_lt_iff_lt.2
      (magnitude_lt f_canonical.1 f_canonical.2.1 g_canonical.2.2 less)]
    rfl
  · have power_pos : (0 : ℚ) < 2 ^ e := zpow_pos (by norm_num) e
    rw [compare_eq_iff_eq.2 rfl, Ordering.eq_then]
    rcases lt_trichotomy m n with below | rfl | above
    · rw [compare_lt_iff_lt.2 below, compare_lt_iff_lt.2
        (mul_lt_mul_of_pos_right (by exact_mod_cast below) power_pos)]
    · rw [compare_eq_iff_eq.2 rfl, compare_eq_iff_eq.2 rfl]
    · rw [compare_gt_iff_gt.2 above, compare_gt_iff_gt.2
        (mul_lt_mul_of_pos_right (by exact_mod_cast above) power_pos)]
  · rw [compare_gt_iff_gt.2 more, compare_gt_iff_gt.2
      (magnitude_lt g_canonical.1 g_canonical.2.1 f_canonical.2.2 more)]
    rfl

theorem swap_compare (a b : ℚ) : (compare a b).swap = compare (-a) (-b) := by
  rcases lt_trichotomy a b with less | rfl | more
  · rw [compare_lt_iff_lt.2 less, compare_gt_iff_gt.2 (neg_lt_neg less)]
    rfl
  · rw [compare_eq_iff_eq.2 rfl, compare_eq_iff_eq.2 rfl]
    rfl
  · rw [compare_gt_iff_gt.2 more, compare_lt_iff_lt.2 (neg_lt_neg more)]
    rfl

/-- Canonical finite doubles are compared like their values. -/
theorem compare_spec (f_finite : f.isFinite = true) (f_canonical : Canonical f)
    (g_finite : g.isFinite = true) (g_canonical : Canonical g) :
    f.compare g = some (compare (value f) (value g)) := by
  cases f with
  | infinity s => cases f_finite
  | notANumber => cases f_finite
  | zero s =>
      cases g with
      | infinity t => cases g_finite
      | notANumber => cases g_finite
      | zero t => rfl
      | finite t n e' n_pos =>
          have pos := magnitude_pos n_pos e'
          cases t with
          | negative => exact congrArg some (compare_gt_iff_gt.2 (neg_lt_zero.2 pos)).symm
          | positive => exact congrArg some (compare_lt_iff_lt.2 pos).symm
  | finite s m e m_pos =>
      have pos := magnitude_pos m_pos e
      cases g with
      | infinity t => cases g_finite
      | notANumber => cases g_finite
      | zero t =>
          cases s with
          | negative => exact congrArg some (compare_lt_iff_lt.2 (neg_lt_zero.2 pos)).symm
          | positive => exact congrArg some (compare_gt_iff_gt.2 pos).symm
      | finite t n e' n_pos =>
          have pos' := magnitude_pos n_pos e'
          have magnitudes := compare_magnitude f_canonical g_canonical
          cases s with
          | negative =>
              cases t with
              | negative =>
                  refine congrArg some ((congrArg Ordering.swap magnitudes).trans ?_)
                  exact swap_compare _ _
              | positive =>
                  refine congrArg some (compare_lt_iff_lt.2 ?_).symm
                  exact (neg_lt_zero.2 pos).trans pos'
          | positive =>
              cases t with
              | negative =>
                  refine congrArg some (compare_gt_iff_gt.2 ?_).symm
                  exact (neg_lt_zero.2 pos').trans pos
              | positive => exact congrArg some magnitudes

theorem lt_iff_compare : x < y ↔ ((view x).compare (view y) == some .lt) = true := by
  change decide (x.toModel < y.toModel) = true ↔ _
  rw [decide_eq_true_iff]
  exact Iff.rfl

theorem le_iff_compare : x ≤ y ↔ ((view x).compare (view y)).any (·.isLE) = true := by
  change decide (x.toModel ≤ y.toModel) = true ↔ _
  rw [decide_eq_true_iff]
  exact Iff.rfl

theorem compare_view (x_finite : x.isFinite = true) (y_finite : y.isFinite = true) :
    (view x).compare (view y) = some (compare (real x) (real y)) :=
  compare_spec x_finite (canonical_view x) y_finite (canonical_view y)

theorem lt_iff (x_finite : x.isFinite = true) (y_finite : y.isFinite = true) :
    x < y ↔ real x < real y := by
  rw [lt_iff_compare, compare_view x_finite y_finite, beq_iff_eq, Option.some_inj,
    compare_lt_iff_lt]

theorem le_iff (x_finite : x.isFinite = true) (y_finite : y.isFinite = true) :
    x ≤ y ↔ real x ≤ real y := by
  rw [le_iff_compare, compare_view x_finite y_finite, Option.any_some,
    ← Ordering.ne_gt_iff_isLE]
  exact compare_le_iff_le

/-- Comparing the other way round gives the opposite. -/
theorem compare_swap (f g : UnpackedFloat) : f.compare g = (g.compare f).map Ordering.swap := by
  cases f with
  | notANumber => cases g <;> rfl
  | infinity s =>
      cases g with
      | notANumber => cases s <;> rfl
      | infinity t => cases s <;> cases t <;> rfl
      | zero t => cases s <;> rfl
      | finite t n e' n_pos => cases s <;> rfl
  | zero s =>
      cases g with
      | notANumber => rfl
      | infinity t => cases t <;> rfl
      | zero t => rfl
      | finite t n e' n_pos => cases t <;> rfl
  | finite s m e m_pos =>
      cases g with
      | notANumber => rfl
      | infinity t => cases t <;> rfl
      | zero t => cases s <;> rfl
      | finite t n e' n_pos =>
          have swapped : (compare e e').then (compare m n) =
              ((compare e' e).then (compare n m)).swap := by
            rw [Ordering.swap_then, Int.compare_swap, Nat.compare_swap]
          cases s with
          | negative =>
              cases t with
              | negative => exact congrArg (fun order => some order.swap) swapped
              | positive => rfl
          | positive =>
              cases t with
              | negative => rfl
              | positive => exact congrArg some swapped

/-- Of two doubles in order the second is not below the first, be they finite or not. -/
theorem not_lt_of_le (le : x ≤ y) : ¬y < x := by
  rw [le_iff_compare, compare_swap] at le
  rw [lt_iff_compare]
  intro lt
  rw [beq_iff_eq] at lt
  rw [lt] at le
  cases le

/-! ## Zero and one -/

theorem real_zero : (Scalar.zero : Float).isFinite = true ∧ real Scalar.zero = 0 := by
  have near := isNearest_ofNat 0
  rw [Nat.cast_zero] at near
  exact near.exact fits_zero

theorem real_one : (Scalar.ofNat 1 : Float).isFinite = true ∧ real (Scalar.ofNat 1) = 1 := by
  have near := isNearest_ofNat 1
  rw [Nat.cast_one] at near
  exact near.exact fits_one

theorem real_half : (Scalar.half : Float).isFinite = true ∧ real Scalar.half = 1 / 2 := by
  have two : (Float.ofNat 2).isFinite = true ∧ real (.ofNat 2) = 2 :=
    (isNearest_ofNat 2).exact (fits_natCast (by norm_num))
  have near := isNearest_div real_one.1 two.1 (by rw [two.2]; norm_num)
  rw [real_one.2, two.2] at near
  exact near.exact fits_half

/-- A finite double without a value is one of the two zeros. -/
theorem view_of_real_eq_zero (finite : x.isFinite = true) (zero : real x = 0) :
    ∃ s, view x = .zero s := by
  rw [isFinite_eq] at finite
  rw [real] at zero
  cases viewed : view x with
  | infinity s => rw [viewed] at finite; cases finite
  | notANumber => rw [viewed] at finite; cases finite
  | zero s => exact ⟨s, rfl⟩
  | finite s m e m_pos =>
      have := magnitude_pos m_pos e
      rw [viewed] at zero
      cases s with
      | negative | positive =>
          rw [value, signed] at zero
          linarith

/-! ## Numbers that are not negative -/

/-- A finite number from zero on, or positive infinity. -/
def NonNeg (x : Float) : Prop :=
  x.isFinite = true ∧ 0 ≤ real x ∨ view x = .infinity .positive

/-- A number that is not negative and not finite is positive infinity. -/
theorem NonNeg.infinite (nonneg : NonNeg x) (not_finite : x.isFinite = false) :
    view x = .infinity .positive := by
  rcases nonneg with ⟨finite, _⟩ | infinite
  · rw [finite] at not_finite
    cases not_finite
  · exact infinite

theorem NonNeg.real_nonneg (nonneg : NonNeg x) : 0 ≤ real x := by
  rcases nonneg with ⟨_, nonneg⟩ | infinite
  · exact nonneg
  · rw [real, infinite]
    exact le_rfl

/-- What is infinite and not negative is above zero. -/
theorem less_zero_of_infinite (infinite : view x = .infinity .positive) :
    Scalar.less Scalar.zero x = true := by
  obtain ⟨s, zero⟩ := view_of_real_eq_zero real_zero.1 real_zero.2
  refine decide_eq_true (lt_iff_compare.2 ?_)
  rw [zero, infinite]
  rfl

theorem less_zero_iff (finite : x.isFinite = true) :
    Scalar.less Scalar.zero x = true ↔ 0 < real x := by
  rw [← real_zero.2, ← lt_iff real_zero.1 finite]
  exact decide_eq_true_iff

/-- The nearest double to a number from zero on is not negative. -/
theorem IsNearest.nonNeg {q : ℚ} (near : IsNearest z q) (nonneg : 0 ≤ q) : NonNeg z := by
  obtain ⟨f, ⟨finite, canonical, value_eq⟩, viewed⟩ := near
  have value_nonneg : 0 ≤ value f := value_eq ▸ nearest_nonneg nonneg
  rw [NonNeg, isFinite_eq, real, viewed]
  cases f with
  | infinity s => cases finite
  | notANumber => cases finite
  | zero s => exact .inl ⟨rfl, le_rfl⟩
  | finite s m e m_pos =>
      rw [clamp]
      by_cases exponent : e ≤ 971
      · rw [if_pos exponent]
        exact .inl ⟨rfl, value_nonneg⟩
      · have pos := magnitude_pos m_pos e
        rw [if_neg exponent]
        cases s with
        | negative =>
            rw [value, signed] at value_nonneg
            linarith
        | positive => exact .inr rfl

/-- A sum with positive infinity is infinite. -/
theorem add_infinite (x_nonneg : NonNeg x) (y_nonneg : NonNeg y)
    (infinite : x.isFinite = false ∨ y.isFinite = false) :
    view (x + y) = .infinity .positive := by
  have unpacked : (view x).add .binary64 (view y) = .infinity .positive := by
    rcases x_nonneg with ⟨x_finite, _⟩ | x_infinite
    · have y_infinite := y_nonneg.infinite (by simpa [x_finite] using infinite)
      rw [isFinite_eq] at x_finite
      rw [y_infinite]
      cases viewed : view x with
      | infinity s => rw [viewed] at x_finite; cases x_finite
      | notANumber => rw [viewed] at x_finite; cases x_finite
      | zero s => rfl
      | finite s m e m_pos => rfl
    · rw [x_infinite]
      rcases y_nonneg with ⟨y_finite, _⟩ | y_infinite
      · rw [isFinite_eq] at y_finite
        cases viewed : view y with
        | infinity s => rw [viewed] at y_finite; cases y_finite
        | notANumber => rw [viewed] at y_finite; cases y_finite
        | zero s => rfl
        | finite s m e m_pos => rfl
      · rw [y_infinite]
        rfl
  have packed : view (x + y) = clamp ((view x).add .binary64 (view y)) :=
    view_ofModel_pack (unpacked ▸ trivial)
  rw [packed, unpacked]
  rfl

end PointPattern.Double
