/-
# Tails of the binomial distribution

At natural parameters the incomplete beta function is a polynomial: the chance of at least so
many successes in independent trials. One more trial succeeds or fails, which gives the
recursion from which everything else follows. The chance grows with the chance of a single
success, and exchanging successes and failures gives the chance of the opposite. The p-value
of a statistic is such a tail with as many successes asked for as failures allowed, so that
it is one half in the middle and never more.
-/

import PointPattern.Proofs.Exact
import PointPattern.Significance
import Mathlib.Algebra.BigOperators.Intervals
import Mathlib.Data.Nat.Choose.Sum
import Mathlib.Tactic.FieldSimp
import Mathlib.Tactic.Linarith
import Mathlib.Tactic.LinearCombination

namespace PointPattern

/-! ## Binomial tails -/

section Tail

variable {K : Type} [Field K]

/-- The chance of at least so many successes in independent trials with the same chance of
success. -/
def binomialTail (trials least : ℕ) (x : K) : K :=
  ∑ j ∈ Finset.Icc least trials, trials.choose j * x ^ j * (1 - x) ^ (trials - j)

@[simp]
theorem binomialTail_zero (trials : ℕ) (x : K) : binomialTail trials 0 x = 1 := by
  have all := add_pow x (1 - x) trials
  rw [add_sub_cancel, one_pow, Finset.range_eq_Ico, Finset.Ico_add_one_right_eq_Icc] at all
  rw [binomialTail]
  refine Eq.trans (Finset.sum_congr rfl fun j _ => ?_) all.symm
  rw [mul_assoc, mul_comm]

theorem binomialTail_of_lt {trials least : ℕ} (few : trials < least) (x : K) :
    binomialTail trials least x = 0 := by
  rw [binomialTail, Finset.Icc_eq_empty (Nat.not_le.2 few), Finset.sum_empty]

/-- The last of the trials succeeds or fails. -/
theorem binomialTail_succ (trials least : ℕ) (x : K) :
    binomialTail (trials + 1) (least + 1) x =
      x * binomialTail trials least x + (1 - x) * binomialTail trials (least + 1) x := by
  rcases Nat.lt_or_ge trials least with few | enough
  · rw [binomialTail_of_lt (Nat.succ_lt_succ few), binomialTail_of_lt few,
      binomialTail_of_lt (Nat.lt_succ_of_lt few), mul_zero, mul_zero, add_zero]
  · have shift (f : ℕ → K) : ∑ j ∈ Finset.Icc (least + 1) (trials + 1), f j =
        ∑ i ∈ Finset.Icc least trials, f (i + 1) := by
      rw [← Finset.Ico_add_one_right_eq_Icc, ← Finset.Ico_add_one_right_eq_Icc,
        Finset.sum_Ico_add' f]
    have success : x * binomialTail trials least x =
        ∑ j ∈ Finset.Icc (least + 1) (trials + 1),
          trials.choose (j - 1) * x ^ j * (1 - x) ^ (trials + 1 - j) := by
      rw [shift, binomialTail, Finset.mul_sum]
      refine Finset.sum_congr rfl fun i _ => ?_
      rw [Nat.add_sub_cancel, Nat.add_sub_add_right, pow_succ]
      ring
    have failure : (1 - x) * binomialTail trials (least + 1) x =
        ∑ j ∈ Finset.Icc (least + 1) (trials + 1),
          trials.choose j * x ^ j * (1 - x) ^ (trials + 1 - j) := by
      rw [Finset.sum_Icc_succ_top (Nat.succ_le_succ enough), Nat.choose_succ_self, Nat.cast_zero,
        zero_mul, zero_mul, add_zero, binomialTail, Finset.mul_sum]
      refine Finset.sum_congr rfl fun j mem => ?_
      rw [Nat.succ_sub (Finset.mem_Icc.1 mem).2, pow_succ]
      ring
    rw [success, failure, ← Finset.sum_add_distrib, binomialTail]
    refine Finset.sum_congr rfl fun j mem => ?_
    obtain ⟨i, rfl⟩ : ∃ i, j = i + 1 := Nat.exists_eq_succ_of_ne_zero
      (Nat.ne_of_gt (Nat.lt_of_lt_of_le least.succ_pos (Finset.mem_Icc.1 mem).1))
    rw [Nat.choose_succ_succ, Nat.add_sub_cancel, Nat.cast_add]
    ring

/-- So many successes, or as many failures as leave fewer. -/
theorem binomialTail_add_reflect (trials least : ℕ) (few : least ≤ trials + 1) (x : K) :
    binomialTail trials least x + binomialTail trials (trials + 1 - least) (1 - x) = 1 := by
  induction trials generalizing least with
  | zero =>
      cases least with
      | zero => simp [binomialTail_of_lt]
      | succ least =>
          have none_left : least = 0 := by omega
          simp [none_left, binomialTail_of_lt]
  | succ trials ih =>
      cases least with
      | zero => rw [binomialTail_zero, Nat.sub_zero, binomialTail_of_lt (Nat.lt_succ_self _), add_zero]
      | succ least =>
          rcases Nat.lt_or_ge trials least with all | some_left
          · have none_left : trials + 1 + 1 - (least + 1) = 0 := by omega
            rw [none_left, binomialTail_zero, binomialTail_of_lt (Nat.succ_lt_succ all), zero_add]
          · have success := ih least (by omega)
            have failure := ih (least + 1) (by omega)
            have left : trials + 1 - least = trials - least + 1 := by omega
            have left' : trials + 1 - (least + 1) = trials - least := by omega
            have left'' : trials + 1 + 1 - (least + 1) = trials - least + 1 := by omega
            rw [left] at success
            rw [left'] at failure
            rw [left'', binomialTail_succ, binomialTail_succ]
            linear_combination x * success + (1 - x) * failure

variable [LinearOrder K] [IsStrictOrderedRing K]

theorem binomialTail_nonneg (trials least : ℕ) {x : K} (x_nonneg : 0 ≤ x) (x_le : x ≤ 1) :
    0 ≤ binomialTail trials least x := by
  apply Finset.sum_nonneg
  intro j _
  have failure : 0 ≤ 1 - x := sub_nonneg.2 x_le
  positivity

theorem binomialTail_le_one (trials least : ℕ) (few : least ≤ trials + 1) {x : K}
    (x_nonneg : 0 ≤ x) (x_le : x ≤ 1) : binomialTail trials least x ≤ 1 := by
  rw [← binomialTail_add_reflect trials least few x]
  exact le_add_of_nonneg_right (binomialTail_nonneg _ _ (sub_nonneg.2 x_le) (sub_le_self 1 x_nonneg))

/-- Asking for one success more is asking for more. -/
theorem binomialTail_succ_le (trials least : ℕ) {x : K} (x_nonneg : 0 ≤ x) (x_le : x ≤ 1) :
    binomialTail trials (least + 1) x ≤ binomialTail trials least x := by
  apply Finset.sum_le_sum_of_subset_of_nonneg
  · exact Finset.Icc_subset_Icc (Nat.le_succ least) le_rfl
  · intro j _ _
    have failure : 0 ≤ 1 - x := sub_nonneg.2 x_le
    positivity

/-- Successes become likelier with the chance of one. -/
theorem binomialTail_mono (trials least : ℕ) {x y : K} (x_nonneg : 0 ≤ x) (x_le : x ≤ y)
    (y_le : y ≤ 1) : binomialTail trials least x ≤ binomialTail trials least y := by
  induction trials generalizing least with
  | zero =>
      cases least with
      | zero => rw [binomialTail_zero, binomialTail_zero]
      | succ least => rw [binomialTail_of_lt least.succ_pos, binomialTail_of_lt least.succ_pos]
  | succ trials ih =>
      cases least with
      | zero => rw [binomialTail_zero, binomialTail_zero]
      | succ least =>
          have y_nonneg := x_nonneg.trans x_le
          have step := binomialTail_succ_le trials least x_nonneg (x_le.trans y_le)
          have gain : 0 ≤ (y - x) *
              (binomialTail trials least x - binomialTail trials (least + 1) x) :=
            mul_nonneg (sub_nonneg.2 x_le) (sub_nonneg.2 step)
          have success := mul_le_mul_of_nonneg_left (ih least) y_nonneg
          have failure := mul_le_mul_of_nonneg_left (ih (least + 1)) (sub_nonneg.2 y_le)
          rw [binomialTail_succ, binomialTail_succ]
          linarith

/-- With as many successes asked for as failures allowed, the middle is in the middle. -/
theorem binomialTail_half {n : ℕ} (some_n : 1 ≤ n) :
    binomialTail (n + n - 1) n (1 / 2 : K) = 1 / 2 := by
  have reflect := binomialTail_add_reflect (n + n - 1) n (by omega) (1 / 2 : K)
  have opposite : n + n - 1 + 1 - n = n := by omega
  have middle : (1 : K) - 1 / 2 = 1 / 2 := by norm_num
  rw [opposite, middle] at reflect
  linarith

end Tail

/-! ## Exact tails -/

/-- Tails of beta distributions that are exact at natural parameters. -/
class BetaTails.Exact (K : Type) [Field K] [LinearOrder K] [BetaTails K] : Prop where
  lower_eq : ∀ {a b : ℕ} {x : K}, 1 ≤ a → 1 ≤ b → 0 ≤ x → x ≤ 1 →
    BetaTails.lower (a : K) b x = binomialTail (a + b - 1) a x
  upper_eq : ∀ {a b : ℕ} {x : K}, 1 ≤ a → 1 ≤ b → 0 ≤ x → x ≤ 1 →
    BetaTails.upper (a : K) b x = 1 - binomialTail (a + b - 1) a x

/-- Tails at natural parameters as fractions. -/
instance : BetaTails ℚ where
  lower a b x := binomialTail (a.num.toNat + b.num.toNat - 1) a.num.toNat x
  upper a b x := 1 - binomialTail (a.num.toNat + b.num.toNat - 1) a.num.toNat x

instance : BetaTails.Exact ℚ where
  lower_eq _ _ _ _ := by simp [BetaTails.lower]
  upper_eq _ _ _ _ := by simp [BetaTails.upper]

/-! ## The p-value -/

namespace Significance

variable {K : Type} [Field K] [LinearOrder K] [Scalar K] [Scalar.Exact K]

theorem clamp_eq (x : K) : clamp x = if x < 0 then 0 else if 1 < x then 1 else x := by
  simp only [clamp, Scalar.Exact.less_iff, Scalar.zero_eq, Scalar.Exact.ofNat_eq, Nat.cast_one]

variable [IsStrictOrderedRing K]

theorem clamp_nonneg (x : K) : 0 ≤ clamp x := by
  rw [clamp_eq]
  split_ifs with below above
  · exact le_rfl
  · exact zero_le_one
  · exact not_lt.1 below

theorem clamp_le_one (x : K) : clamp x ≤ 1 := by
  rw [clamp_eq]
  split_ifs with below above
  · exact zero_le_one
  · exact le_rfl
  · exact not_lt.1 above

theorem half_le_clamp {x : K} (right : 1 / 2 < x) : 1 / 2 ≤ clamp x := by
  rw [clamp_eq]
  split_ifs with below above
  · linarith
  · linarith
  · exact right.le

theorem clamp_le_half {x : K} (left : ¬1 / 2 < x) : clamp x ≤ 1 / 2 := by
  rw [clamp_eq]
  split_ifs with below above
  · linarith
  · linarith
  · exact not_lt.1 left

variable [BetaTails K] [BetaTails.Exact K]

/-- Every number has a p-value, the tail on its side of one half. -/
theorem pValue_eq {n : ℕ} (some_points : 1 ≤ n) (x : K) :
    pValue x n = .ok (if 1 / 2 < x then 1 - binomialTail (n + n - 1) n (clamp x)
      else binomialTail (n + n - 1) n (clamp x)) := by
  have shape : isShape (n : K) = true := by
    have positive : (0 : K) < n := Nat.cast_pos.2 some_points
    simpa [isShape] using positive
  simp only [pValue, regularizedBeta, Scalar.Exact.isNaN_eq, Scalar.Exact.ofNat_eq, shape,
    Scalar.half_eq, Scalar.Exact.less_iff, Bool.not_true, Bool.false_eq_true, if_false,
    BetaTails.Exact.lower_eq some_points some_points (clamp_nonneg x) (clamp_le_one x),
    BetaTails.Exact.upper_eq some_points some_points (clamp_nonneg x) (clamp_le_one x)]
  split_ifs <;> rfl

/-- The p-value is a tail beyond the middle. -/
theorem pValue_mem {n : ℕ} (some_points : 1 ≤ n) (x : K) :
    ∃ p, pValue x n = .ok p ∧ 0 ≤ p ∧ p ≤ 1 / 2 := by
  refine ⟨_, pValue_eq some_points x, ?_⟩
  have middle := binomialTail_half (K := K) some_points
  split_ifs with right
  · have above := binomialTail_mono (n + n - 1) n (by norm_num) (half_le_clamp right)
      (clamp_le_one x)
    have all := binomialTail_le_one (n + n - 1) n (by omega) (clamp_nonneg x) (clamp_le_one x)
    rw [middle] at above
    exact ⟨sub_nonneg.2 all, by linarith⟩
  · have below := binomialTail_mono (n + n - 1) n (clamp_nonneg x) (clamp_le_half right)
      (by norm_num)
    rw [middle] at below
    exact ⟨binomialTail_nonneg _ _ (clamp_nonneg x) (clamp_le_one x), below⟩

end Significance

end PointPattern
