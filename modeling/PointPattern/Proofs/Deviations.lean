/-
# Significance falls with the deviation from one half

A statistic on either side of one half is folded over to the left side, and what lies beyond the
ends counts as at the end. The p-value is the lower tail there: on the right side this is the
symmetry of the tail, which exchanges successes and failures. The tail grows strictly with the
chance of a success, so of two statistics the one that deviates more is always more significant,
on whichever sides of one half they fall.
-/

import PointPattern.Proofs.Tails

namespace PointPattern

/-! ## Binomial tails grow strictly -/

section Tail

variable {K : Type} [Field K]

/-- At least so many successes are exactly so many or more. -/
theorem binomialTail_eq_add {trials least : ℕ} (enough : least ≤ trials) (x : K) :
    binomialTail trials least x =
      trials.choose least * x ^ least * (1 - x) ^ (trials - least) +
        binomialTail trials (least + 1) x := by
  rw [binomialTail, ← Finset.insert_Icc_add_one_left_eq_Icc enough, Finset.sum_insert (by simp),
    binomialTail]

/-- Without any chance of success there are none. -/
theorem binomialTail_at_zero (trials : ℕ) {least : ℕ} (least_pos : 1 ≤ least) :
    binomialTail trials least (0 : K) = 0 := by
  refine Finset.sum_eq_zero fun j mem => ?_
  have j_ne_zero : j ≠ 0 := Nat.ne_of_gt (least_pos.trans (Finset.mem_Icc.1 mem).1)
  rw [zero_pow j_ne_zero, mul_zero, zero_mul]

variable [LinearOrder K] [IsStrictOrderedRing K]

/-- If some trial may fail, asking for one success is asking for more than nothing. -/
theorem binomialTail_one_lt (trials : ℕ) {x : K} (x_lt : x < 1) : binomialTail trials 1 x < 1 := by
  have failure : 0 < (1 - x) ^ trials := pow_pos (sub_pos.2 x_lt) trials
  have split := binomialTail_eq_add (Nat.zero_le trials) x
  rw [binomialTail_zero, Nat.choose_zero_right, Nat.cast_one, pow_zero, one_mul, one_mul,
    Nat.sub_zero, zero_add] at split
  linarith

/-- If a success is asked for and can be had, it becomes likelier with the chance of one. -/
theorem binomialTail_lt {trials least : ℕ} (least_pos : 1 ≤ least) (enough : least ≤ trials)
    {x y : K} (x_nonneg : 0 ≤ x) (x_lt : x < y) (y_le : y ≤ 1) :
    binomialTail trials least x < binomialTail trials least y := by
  induction trials generalizing least with
  | zero => omega
  | succ trials ih =>
      obtain ⟨least, rfl⟩ : ∃ i, least = i + 1 := Nat.exists_eq_succ_of_ne_zero (by omega)
      have y_pos : 0 < y := x_nonneg.trans_lt x_lt
      have x_lt_one : x < 1 := x_lt.trans_le y_le
      have step := binomialTail_succ_le trials least x_nonneg x_lt_one.le
      have failure := mul_le_mul_of_nonneg_left
        (binomialTail_mono trials (least + 1) x_nonneg x_lt.le y_le) (sub_nonneg.2 y_le)
      rw [binomialTail_succ, binomialTail_succ]
      -- The last trial alone makes the difference if no other success is asked for.
      rcases Nat.eq_zero_or_pos least with rfl | least_pos
      · have gain : 0 < (y - x) * (1 - binomialTail trials 1 x) :=
          mul_pos (sub_pos.2 x_lt) (sub_pos.2 (binomialTail_one_lt trials x_lt_one))
        rw [binomialTail_zero, binomialTail_zero]
        rw [zero_add] at failure ⊢
        linarith
      · have gain : 0 ≤ (y - x) *
            (binomialTail trials least x - binomialTail trials (least + 1) x) :=
          mul_nonneg (sub_nonneg.2 x_lt.le) (sub_nonneg.2 step)
        have success := mul_lt_mul_of_pos_left (ih least_pos (by omega)) y_pos
        linarith

/-- With as many successes asked for as failures allowed, exchanging them gives the opposite. -/
theorem one_sub_binomialTail {n : ℕ} (some_n : 1 ≤ n) (x : K) :
    1 - binomialTail (n + n - 1) n x = binomialTail (n + n - 1) n (1 - x) := by
  have reflect := binomialTail_add_reflect (n + n - 1) n (by omega) x
  have opposite : n + n - 1 + 1 - n = n := by omega
  rw [opposite] at reflect
  linarith

end Tail

/-! ## The p-value -/

namespace Significance

variable {K : Type} [Field K] [LinearOrder K]

/-- How far a statistic is from the nearer end of the range from zero to one. Outside the range it
counts as at the end. -/
def depth (x : K) : K := max 0 (1 / 2 - |x - 1 / 2|)

theorem depth_nonneg (x : K) : 0 ≤ depth x := le_max_left _ _

theorem depth_le_half [IsStrictOrderedRing K] (x : K) : depth x ≤ 1 / 2 :=
  max_le (by norm_num) (sub_le_self _ (abs_nonneg _))

theorem depth_one_sub [IsStrictOrderedRing K] (x : K) : depth (1 - x) = depth x := by
  have turned : (1 : K) - x - 1 / 2 = -(x - 1 / 2) := by ring
  rw [depth, turned, abs_neg, depth]

theorem depth_of_le_half [IsStrictOrderedRing K] {x : K} (nonneg : 0 ≤ x) (left : x ≤ 1 / 2) :
    depth x = x := by
  rw [depth, abs_of_nonpos (sub_nonpos.2 left), neg_sub, sub_sub_cancel, max_eq_right nonneg]

theorem depth_of_outside [IsStrictOrderedRing K] {x : K} (outside : x ≤ 0 ∨ 1 ≤ x) :
    depth x = 0 := by
  apply max_eq_left
  rcases outside with below | above
  · have := neg_le_abs (x - 1 / 2)
    linarith
  · have := le_abs_self (x - 1 / 2)
    linarith

/-- Within the range the depth falls with the deviation. -/
theorem depth_lt [IsStrictOrderedRing K] {x y : K} (nonneg : 0 ≤ y) (le_one : y ≤ 1)
    (closer : |x - 1 / 2| < |y - 1 / 2|) : depth y < depth x := by
  have inside : |y - 1 / 2| ≤ 1 / 2 := abs_le.2 ⟨by linarith, by linarith⟩
  rw [depth, depth, max_eq_right (sub_nonneg.2 inside),
    max_eq_right (sub_nonneg.2 (closer.le.trans inside))]
  exact sub_lt_sub_left closer _

variable [IsStrictOrderedRing K] [Scalar K] [Scalar.Exact K]

/-- On the left a statistic is moved into the range, and folded over on the right. -/
theorem depth_eq_clamp (x : K) : depth x = if 1 / 2 < x then 1 - clamp x else clamp x := by
  rw [clamp_eq]
  split_ifs with right below above below above
  · linarith
  · rw [sub_self, depth_of_outside (.inr above.le)]
  · rw [← depth_one_sub, depth_of_le_half (by linarith) (by linarith)]
  · exact depth_of_outside (.inl below.le)
  · linarith
  · exact depth_of_le_half (not_lt.1 below) (not_lt.1 right)

variable [BetaTails K] [BetaTails.Exact K] {n : ℕ}

/-- The p-value is the lower tail at the depth of the statistic. -/
theorem pValue_eq_depth (some_points : 1 ≤ n) (x : K) :
    pValue x n = .ok (binomialTail (n + n - 1) n (depth x)) := by
  rw [pValue_eq some_points, depth_eq_clamp]
  split_ifs
  · rw [one_sub_binomialTail some_points]
  · rfl

/-- Every statistic has a p-value from zero to one half. It is one half in the middle and zero at
the ends and beyond, it is the same for equal deviations to both sides, and within the range the
greater deviation has the smaller one. Up to one half it is the chance of at least as many
successes as there are points, in one trial less than twice as many. -/
theorem pValue_falls_with_deviation (some_points : 1 ≤ n) :
    ∃ p : K → K, (∀ x, pValue x n = .ok (p x)) ∧
      (∀ x, 0 ≤ p x ∧ p x ≤ 1 / 2) ∧
      (∀ x, p (1 - x) = p x) ∧
      p (1 / 2) = 1 / 2 ∧
      (∀ x, x ≤ 0 ∨ 1 ≤ x → p x = 0) ∧
      (∀ x, 0 ≤ x → x ≤ 1 / 2 → p x = ∑ j ∈ Finset.Icc n (2 * n - 1),
        (2 * n - 1).choose j * x ^ j * (1 - x) ^ (2 * n - 1 - j)) ∧
      ∀ x y, 0 ≤ x → x ≤ 1 → 0 ≤ y → y ≤ 1 → |x - 1 / 2| < |y - 1 / 2| → p y < p x := by
  have half_le_one : (1 / 2 : K) ≤ 1 := by norm_num
  have middle := binomialTail_half (K := K) some_points
  have tail_le (x : K) : binomialTail (n + n - 1) n (depth x) ≤ 1 / 2 :=
    middle ▸ binomialTail_mono _ _ (depth_nonneg x) (depth_le_half x) half_le_one
  refine ⟨fun x => binomialTail (n + n - 1) n (depth x), pValue_eq_depth some_points,
    fun x => ⟨?_, tail_le x⟩, fun x => ?_, ?_, fun x outside => ?_, fun x nonneg left => ?_, ?_⟩
  · exact binomialTail_nonneg _ _ (depth_nonneg x) ((depth_le_half x).trans half_le_one)
  · dsimp only
    rw [depth_one_sub]
  · dsimp only
    rw [depth_of_le_half (by norm_num) le_rfl, middle]
  · dsimp only
    rw [depth_of_outside outside, binomialTail_at_zero _ some_points]
  · dsimp only
    rw [depth_of_le_half nonneg left, binomialTail, ← two_mul]
  · intro x y _ _ y_nonneg y_le closer
    exact binomialTail_lt some_points (by omega) (depth_nonneg y)
      (depth_lt y_nonneg y_le closer) ((depth_le_half x).trans half_le_one)

/-- For three points four fifths and one fifth are equally significant, and both are more
significant than one quarter. -/
theorem pValue_falls_with_deviation_threePoints :
    ∃ p q : ℚ, pValue (1 / 4 : ℚ) 3 = .ok p ∧ pValue (4 / 5 : ℚ) 3 = .ok q ∧
      pValue (1 / 5 : ℚ) 3 = .ok q ∧ 0 ≤ q ∧ q < p ∧ p ≤ 1 / 2 := by
  obtain ⟨p, defined, mem, symmetric, -, -, -, falls⟩ :=
    pValue_falls_with_deviation (K := ℚ) (n := 3) (by decide)
  have mirrored : p (1 / 5) = p (4 / 5) := by
    rw [← symmetric]
    norm_num
  refine ⟨p (1 / 4), p (4 / 5), defined _, defined _, mirrored ▸ defined _, (mem _).1, ?_,
    (mem _).2⟩
  refine falls _ _ (by norm_num) (by norm_num) (by norm_num) (by norm_num) ?_
  norm_num [abs_lt, lt_abs]

end Significance

end PointPattern
