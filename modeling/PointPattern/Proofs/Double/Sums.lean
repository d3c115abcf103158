/-
# Powers and sums of doubles

Powers and exactly rounded sums are formed from the bits of doubles by arithmetic of
natural numbers. The bits are those that the operations read as well, and the fraction at the
end becomes the nearest double. So powers of distances are numbers from zero on or
positive infinity, and so is their sum, unless it fails because it leaves the range.
-/

import PointPattern.Proofs.Double.Fractions
import PointPattern.Proofs.Double.Order
import PointPattern.Trial

namespace PointPattern.Double

open Float.Model Float.Model.UnpackedFloat
open PointPattern.Number

/-! ## Bits -/

/-- The sign bit as a truth value. -/
def isNegative : Sign → Bool
  | .negative => true
  | .positive => false

/-- What the bits of a double are read as is what the operations see. -/
theorem ofFloat_eq (x : Float) :
    Binary.ofFloat x =
      match view x with
      | .notANumber => .nan
      | .infinity s => .infinite (isNegative s)
      | .zero s => .finite (isNegative s) 0 (-1074)
      | .finite s m e _ => .finite (isNegative s) m e := by
  have fields := unpack_ofBitVec x.toModel.toBits.toBitVec
  rw [view, Float.Model.unpack, fields]
  have sign : decide (Nat.pow 2 63 ≤ x.toBits.toNat) =
      isNegative (if x.toModel.toBits.toBitVec.toNat < 2 ^ 63 then .positive else .negative) := by
    by_cases small : x.toModel.toBits.toBitVec.toNat < 2 ^ 63
    · rw [if_pos small]
      exact decide_eq_false (Nat.not_le.2 small)
    · rw [if_neg small]
      exact decide_eq_true (Nat.not_lt.1 small)
  rw [Binary.ofFloat, ofFields]
  rw [sign]
  generalize (if x.toModel.toBits.toBitVec.toNat < 2 ^ 63 then Sign.positive else .negative) = s
  change (if x.toModel.toBits.toBitVec.toNat / 2 ^ 52 % 2 ^ 11 = 2047 then
      (if x.toModel.toBits.toBitVec.toNat % 2 ^ 52 = 0 then _ else _)
    else if x.toModel.toBits.toBitVec.toNat / 2 ^ 52 % 2 ^ 11 = 0 then
      Binary.finite _ (x.toModel.toBits.toBitVec.toNat % 2 ^ 52) (-1074)
    else Binary.finite _ (2 ^ 52 + x.toModel.toBits.toBitVec.toNat % 2 ^ 52)
      ((x.toModel.toBits.toBitVec.toNat / 2 ^ 52 % 2 ^ 11 : ℕ) - 1075)) = _
  generalize x.toModel.toBits.toBitVec.toNat / 2 ^ 52 % 2 ^ 11 = exponent
  generalize x.toModel.toBits.toBitVec.toNat % 2 ^ 52 = mantissa
  by_cases special : exponent = 2047
  · rw [if_pos special, if_pos special]
    by_cases none_left : mantissa = 0
    · rw [if_pos none_left, if_pos none_left]
    · rw [if_neg none_left, if_neg none_left]
  · rw [if_neg special, if_neg special]
    by_cases least : exponent = 0
    · rw [if_pos least, if_pos least]
      by_cases zero : mantissa = 0
      · rw [dif_pos zero, zero]
      · rw [dif_neg zero]
    · rw [if_neg least, if_neg least]

theorem nonNeg_floatOfFraction (num : ℕ) {den : ℕ} (den_pos : 0 < den) :
    NonNeg (floatOfFraction false num den) :=
  (isNearest_floatOfFraction false num den_pos).nonNeg
    (div_nonneg (Nat.cast_nonneg num) (Nat.cast_nonneg den))

/-- Zero with either sign is not negative. -/
theorem nonNeg_zero (negative : Bool) : NonNeg (floatOfFraction negative 0 1) := by
  apply (isNearest_floatOfFraction negative 0 Nat.one_pos).nonNeg
  rw [Nat.cast_zero, zero_div, signed_zero]

theorem nonNeg_infinite : NonNeg (Binary.infinite false).toFloat :=
  .inr (view_toFloat_infinite false)

/-! ## Powers -/

/-- What is read off the bits of a number that is not negative. -/
theorem ofFloat_cases {x : Float} (nonneg : NonNeg x) :
    Binary.ofFloat x = .infinite false ∨
      ∃ s m e, Binary.ofFloat x = .finite s m e ∧ (s = true → m = 0) := by
  rw [ofFloat_eq]
  rcases nonneg with ⟨finite, nonneg⟩ | infinite
  · rw [isFinite_eq] at finite
    rw [real] at nonneg
    right
    cases viewed : view x with
    | infinity s => rw [viewed] at finite; cases finite
    | notANumber => rw [viewed] at finite; cases finite
    | zero s => exact ⟨_, _, _, rfl, fun _ => rfl⟩
    | finite s m e m_pos =>
        rw [viewed] at nonneg
        cases s with
        | negative =>
            have pos := magnitude_pos m_pos e
            rw [value, signed] at nonneg
            linarith
        | positive => exact ⟨_, _, _, rfl, fun negative => by cases negative⟩
  · rw [infinite]
    exact .inl rfl

theorem nonNeg_magnitudePower (m : ℕ) (e : ℤ) (n : ℕ) : NonNeg (magnitudePower false m e n) := by
  have den_pos : 0 < (Binary.fraction m e).2 := (scaleByTwo_spec m Nat.one_pos e).1
  simp only [magnitudePower, Int.natCast_nonneg, if_true]
  split
  · exact nonNeg_infinite
  · split
    · exact nonNeg_zero false
    · exact nonNeg_floatOfFraction _ (Nat.pow_pos den_pos)

/-- A natural power of a number that is not negative is not negative. -/
theorem nonNeg_power {x : Float} (nonneg : NonNeg x) (n : ℕ) : NonNeg (Number.power x n) := by
  rw [Number.power]
  by_cases zero : (n : ℤ) = 0
  · rw [if_pos zero]
    exact nonNeg_floatOfFraction 1 Nat.one_pos
  · have positive : 0 < (n : ℤ) := by omega
    rw [if_neg zero]
    rcases ofFloat_cases nonneg with infinite | ⟨s, m, e, finite, sign⟩
    · rw [infinite]
      dsimp only
      rw [Bool.false_and, if_pos positive]
      exact nonNeg_infinite
    · rw [finite]
      dsimp only
      by_cases none_left : m = 0
      · rw [if_pos none_left, if_pos positive]
        exact nonNeg_zero _
      · have unsigned : s = false := by
          cases s with
          | true => exact absurd (sign rfl) none_left
          | false => rfl
        rw [if_neg none_left, unsigned, Bool.false_and]
        exact nonNeg_magnitudePower m e n

/-! ## Sums -/

/-- A sum under way of numbers that are not negative. -/
structure IsPartial (s : PartialSum) : Prop where
  units : 0 ≤ s.units
  negative : s.negative = false
  invalid : s.invalid = false

theorem isPartial_add {s : PartialSum} (partly : IsPartial s) {x : Float} (nonneg : NonNeg x) :
    s.add x = .error .overflow ∨ ∃ s', s.add x = .ok s' ∧ IsPartial s' := by
  rw [PartialSum.add]
  rcases ofFloat_cases nonneg with infinite | ⟨sign, m, e, finite, unsigned⟩
  · rw [infinite]
    exact .inr ⟨_, rfl, le_rfl, partly.negative, partly.invalid⟩
  · have units_nonneg : 0 ≤ inUnits sign m e := by
      rw [inUnits]
      cases sign with
      | true =>
          rw [unsigned rfl]
          simp
      | false =>
          exact mul_nonneg (Int.natCast_nonneg m) (Int.natCast_nonneg _)
    rw [finite]
    dsimp only
    split
    · exact .inl rfl
    · exact .inr ⟨_, rfl, add_nonneg partly.units units_nonneg, partly.negative, partly.invalid⟩

theorem nonNeg_floatOfUnits (num k : ℕ) : NonNeg (floatOfFraction false num (Nat.pow 2 k)) :=
  nonNeg_floatOfFraction num (Nat.pow_pos (by norm_num))

theorem nonNeg_result {s : PartialSum} (partly : IsPartial s) :
    ∃ total, s.result = .ok total ∧ NonNeg total := by
  have unsigned : decide (s.units < 0) = false := decide_eq_false (not_lt.2 partly.units)
  rw [PartialSum.result, partly.negative, partly.invalid, Bool.and_false, unsigned]
  simp only [Bool.false_eq_true, if_false]
  by_cases infinite : s.positive = true
  · rw [if_pos infinite]
    exact ⟨_, rfl, nonNeg_infinite⟩
  · rw [if_neg infinite]
    generalize (1074 : ℕ) = k
    exact ⟨_, rfl, nonNeg_floatOfUnits _ k⟩

/-- A sum of numbers that are not negative leaves the range or is not negative. -/
theorem exactSum_cases {xs : List Float} (nonneg : ∀ x ∈ xs, NonNeg x) :
    exactSum xs = .error .overflow ∨ ∃ total, exactSum xs = .ok total ∧ NonNeg total := by
  have fold (s : PartialSum) (partly : IsPartial s) :
      xs.foldlM PartialSum.add s = .error .overflow ∨
        ∃ s', xs.foldlM PartialSum.add s = .ok s' ∧ IsPartial s' := by
    induction xs generalizing s with
    | nil => exact .inr ⟨s, rfl, partly⟩
    | cons x rest ih =>
        rw [List.foldlM_cons]
        rcases isPartial_add partly (nonneg x List.mem_cons_self) with failed | ⟨s', added, partly'⟩
        · rw [failed]
          exact .inl rfl
        · rw [added]
          exact ih (fun y mem => nonneg y (List.mem_cons_of_mem x mem)) s' partly'
  rw [exactSum]
  rcases fold {} ⟨le_rfl, rfl, rfl⟩ with failed | ⟨s', summed, partly⟩
  · rw [failed]
    exact .inl rfl
  · rw [summed]
    exact .inr (nonNeg_result partly)

/-! ## Distances -/

theorem nonNeg_of_isDistance {x : Float} (distance : isDistance x = true) : NonNeg x := by
  rw [isDistance, Bool.and_eq_true, Bool.not_eq_true'] at distance
  obtain ⟨finite, not_less⟩ := distance
  have not_below : ¬x < Scalar.zero := of_decide_eq_false not_less
  rw [lt_iff finite real_zero.1, real_zero.2] at not_below
  exact .inl ⟨finite, not_lt.1 not_below⟩

/-- The sum of powers of distances leaves the range or is not negative. -/
theorem aggregate_cases {xs : List Float} (distances : ∀ x ∈ xs, isDistance x = true) (dim : ℕ) :
    aggregate xs dim = .error (.number (.sum .overflow)) ∨
      ∃ total, aggregate xs dim = .ok total ∧ NonNeg total := by
  have powers : ∀ y ∈ xs.map (Number.power · dim), NonNeg y := by
    intro y mem
    obtain ⟨x, x_mem, rfl⟩ := List.mem_map.1 mem
    exact nonNeg_power (nonNeg_of_isDistance (distances x x_mem)) dim
  have summed : aggregate xs dim =
      (exactSum (xs.map (Number.power · dim))).mapError fun failure => .number (.sum failure) := rfl
  rw [summed]
  rcases exactSum_cases powers with failed | ⟨total, eq, nonneg⟩
  · rw [failed]
    exact .inl rfl
  · rw [eq]
    exact .inr ⟨total, rfl, nonneg⟩

end PointPattern.Double
