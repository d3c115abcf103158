/-
# Shares and their means in doubles

The share of a sum in a total is a number from zero to one if the sum is finite, also if
the total is not, and is not a number if the sum is infinite. Running means of shares stay
from zero to one: rounding never carries an update across the ends, because the distance
of a mean from one is a double itself once the mean is a half. What is not a number never
leaves a mean again.
-/

import PointPattern.Proofs.Double.Order
import PointPattern.Proofs.Chunks
import PointPattern.Proofs.Moments
import PointPattern.Trials

namespace PointPattern

open Double

/-- A finite double from zero to one. -/
structure IsShare (x : Float) : Prop where
  finite : x.isFinite = true
  nonneg : 0 ≤ real x
  le_one : real x ≤ 1

namespace IsShare

variable {x m q d : Float}

/-- The order of doubles agrees with the order of the values. -/
theorem between (share : IsShare x) : (0 : Float) ≤ x ∧ x ≤ (1 : Float) := by
  have zero_le := (le_iff real_zero.1 share.finite).2 (real_zero.2 ▸ share.nonneg)
  have le_one := (le_iff share.finite real_one.1).2 (real_one.2.symm ▸ share.le_one)
  exact ⟨zero_le, le_one⟩

theorem of_isNearest {r : ℚ} (near : IsNearest x r) (nonneg : 0 ≤ r) (le_one : r ≤ 1) :
    IsShare x := by
  obtain ⟨finite, lower, upper⟩ := near.between fits_zero fits_one nonneg le_one
  exact ⟨finite, lower, upper⟩

end IsShare

/-! ## Shares -/

section Share

variable {u w : Float}

theorem isShare_half : IsShare Scalar.half := by
  obtain ⟨finite, value⟩ := real_half
  exact ⟨finite, by rw [value]; norm_num, by rw [value]; norm_num⟩

/-- A total of zero gives one half, and every other one a quotient. -/
theorem ofSums_h (u w : Float) :
    (Trial.ofSums u w).h =
      if Scalar.less Scalar.zero (u + w) = true then u / (u + w) else Scalar.half := rfl

/-- The share of a finite sum is a number from zero to one. -/
theorem isShare_ofSums (u_nonneg : NonNeg u) (w_nonneg : NonNeg w) (finite : u.isFinite = true) :
    IsShare (Trial.ofSums u w).h := by
  rw [ofSums_h]
  by_cases infinite : view (u + w) = .infinity .positive
  · obtain ⟨quotient_finite, zero⟩ := real_div_infinity finite infinite
    rw [if_pos (less_zero_of_infinite infinite)]
    exact ⟨quotient_finite, zero.symm.le, zero.symm ▸ zero_le_one⟩
  · have w_finite : w.isFinite = true := by
      by_contra not_finite
      exact infinite (add_infinite u_nonneg w_nonneg (.inr (by simpa using not_finite)))
    have near := isNearest_add finite w_finite
    have u_le : real u ≤ real u + real w := le_add_of_nonneg_right w_nonneg.real_nonneg
    have total_finite : (u + w).isFinite = true :=
      (near.nonNeg (u_nonneg.real_nonneg.trans u_le)).resolve_right infinite |>.1
    by_cases some_total : Scalar.less Scalar.zero (u + w) = true
    · have positive := (less_zero_iff total_finite).1 some_total
      have le_total : real u ≤ real (u + w) := by
        have := nearest_mono u_le
        rwa [nearest_of_hasBits (fits_real u).bits, ← near.real_eq total_finite] at this
      rw [if_pos some_total]
      exact .of_isNearest (isNearest_div finite total_finite positive.ne')
        (div_nonneg u_nonneg.real_nonneg positive.le) (div_le_one_of_le₀ le_total positive.le)
    · rw [if_neg some_total]
      exact isShare_half

/-- The share of an infinite sum is infinity over infinity. -/
theorem isNaN_ofSums (u_nonneg : NonNeg u) (w_nonneg : NonNeg w)
    (infinite : u.isFinite = false) : (Trial.ofSums u w).h.isNaN = true := by
  have total := add_infinite u_nonneg w_nonneg (.inl infinite)
  rw [ofSums_h, if_pos (less_zero_of_infinite total)]
  exact isNaN_div_infinity (u_nonneg.infinite infinite) total

end Share

/-! ## Updates of a mean -/

section Update

variable {m x q d : Float}

/-- From one half on, the distance of a share from one is a double. -/
theorem IsShare.fits_one_sub (share : IsShare m) (large : 1 / 2 ≤ real m) :
    Fits (1 - real m) := by
  have bits : HasBits (real m) := abs_of_nonneg share.nonneg ▸ (fits_real m).bits
  have from_one : |1 - real m| = 1 - real m := abs_of_nonneg (sub_nonneg.2 share.le_one)
  constructor
  case bits => rw [from_one]; exact bits.one_sub large share.le_one
  case range => rw [from_one]; linarith [one_lt_limit]

/-- How far a share is away from a mean. -/
structure IsOffset (d m : Float) : Prop where
  finite : d.isFinite = true
  lower : -real m ≤ real d
  le_one : real d ≤ 1
  upper : 1 / 2 ≤ real m → real d ≤ 1 - real m

theorem IsShare.isOffset (mean : IsShare m) (share : IsShare x) : IsOffset (x - m) m := by
  have near := isNearest_sub share.finite mean.finite
  have lower : -real m ≤ real x - real m := by linarith [share.nonneg]
  have upper : real x - real m ≤ 1 - real m := by linarith [share.le_one]
  have le_one : real x - real m ≤ 1 := upper.trans (by linarith [mean.nonneg])
  obtain ⟨finite, at_least, at_most⟩ := near.between (fits_real m).neg fits_one lower le_one
  refine ⟨finite, at_least, at_most, fun large => ?_⟩
  exact (near.between (fits_real m).neg (mean.fits_one_sub large) lower upper).2.2

/-- A mean is moved by a number that is nearest to part of an offset. -/
theorem IsShare.add (mean : IsShare m) (offset : IsOffset d m) {r : ℚ} (near : IsNearest q r)
    (between : real d ≤ 0 ∧ real d ≤ r ∧ r ≤ 0 ∨ 0 ≤ real d ∧ 0 ≤ r ∧ r ≤ real d)
    (half : real m = 0 ∨ r ≤ 1 / 2) : IsShare (m + q) := by
  have lower : -real m ≤ r := by
    rcases between with ⟨_, at_least, _⟩ | ⟨_, at_least, _⟩
    · exact offset.lower.trans at_least
    · linarith [mean.nonneg]
  have sum_le (hi : ℚ) (fits : Fits hi) (le : r ≤ hi) (room : real m + hi ≤ 1) :
      IsShare (m + q) := by
    obtain ⟨finite, at_least, at_most⟩ := near.between (fits_real m).neg fits lower le
    exact .of_isNearest (isNearest_add mean.finite finite) (by linarith) (by linarith)
  by_cases large : 1 / 2 ≤ real m
  · refine sum_le _ (mean.fits_one_sub large) ?_ (by linarith)
    rcases between with ⟨_, _, at_most⟩ | ⟨_, _, at_most⟩
    · linarith [mean.le_one]
    · exact at_most.trans (offset.upper large)
  · rcases half with zero | small
    · refine sum_le 1 fits_one ?_ (by linarith)
      rcases between with ⟨_, _, at_most⟩ | ⟨_, _, at_most⟩
      · linarith
      · exact at_most.trans offset.le_one
    · exact sum_le _ fits_half small (by linarith)

end Update

end PointPattern
