/-
# Repetitions in doubles

The powers of distances have a sum that is not negative, unless a sum of finite numbers leaves
the range. A repetition with two such sums gives a share if the sum over the uniform points is
finite, and what is not a number otherwise.
-/

import PointPattern.Proofs.Double.Shares
import PointPattern.Proofs.Double.Sums
import PointPattern.Proofs.Samples

namespace PointPattern

open Double

section Repetitions

variable {σ : Type}

/-- The failure of a sum of finite numbers that leaves the range. -/
def sumOverflow : Error := .number (.sum .overflow)

/-- How a repetition may fail: a sum leaves the range, or the oracle does not answer. -/
def MayFail (o : Oracle σ Float) (size dim : ℕ) (e : Error) : Prop :=
  e = sumOverflow ∨ e.IsOracleFailure ∧ ¬o.Answers size dim

/-- What the sum over the uniform points decides of a repetition. -/
structure Trial.Decided (t : Trial Float) : Prop where
  share : t.u.isFinite = true → IsShare t.h
  nan : t.u.isFinite = false → t.h.isNaN = true

theorem decided_ofSums {u w : Float} (u_nonneg : NonNeg u) (w_nonneg : NonNeg w) :
    (Trial.ofSums u w).Decided where
  share finite := isShare_ofSums u_nonneg w_nonneg finite
  nan infinite := isNaN_ofSums u_nonneg w_nonneg infinite

/-- The powers of distances have a sum that is not negative, or leave the range. -/
theorem sumsAs_nonNeg : SumsAs (· = sumOverflow) NonNeg := by
  intro xs dim distances
  rcases aggregate_cases distances dim with failed | ⟨total, summed, nonneg⟩
  · rw [failed]
    exact .error rfl
  · rw [summed]
    exact .ok nonneg

end Repetitions

end PointPattern
