/-
# Fractions as doubles

Integers, powers and sums become doubles by one function, which rounds an exact fraction into
the format. The exponent that it chooses is that of the unit in the last place, and the
quotient by the unit is rounded to the nearest integer. So what it gives is the nearest double
to the fraction, infinite beyond the range.
-/

import PointPattern.Number.Binary
import PointPattern.Proofs.Double.Arithmetic

namespace PointPattern.Double

open Float.Model Float.Model.UnpackedFloat
open PointPattern.Number

/-! ## Bits -/

/-- The sign that a truth value stands for. -/
def signOf : Bool → Sign
  | true => .negative
  | false => .positive

/-- The fields of a double with a given sign. -/
theorem view_ofBits_signed (negative : Bool) {bits : ℕ} (unsigned : bits < 2 ^ 63) :
    view (.ofBits (UInt64.ofNat ((if negative then 2 ^ 63 else 0) + bits))) =
      ofFields (signOf negative) (bits / 2 ^ 52) (bits % 2 ^ 52) := by
  have word : (UInt64.ofNat ((if negative then 2 ^ 63 else 0) + bits)).toNat =
      (if negative then 2 ^ 63 else 0) + bits := by
    rw [UInt64.toNat_ofNat']
    exact Nat.mod_eq_of_lt (by split <;> omega)
  rw [view_ofBits, word]
  cases negative with
  | true =>
      simp only [if_true]
      rw [if_neg (by omega)]
      congr 1 <;> omega
  | false =>
      simp only [Bool.false_eq_true, if_false]
      rw [if_pos (by omega)]
      congr 1 <;> omega

theorem view_toFloat_infinite (negative : Bool) :
    view (Binary.infinite negative).toFloat = .infinity (signOf negative) := by
  have bits : (Binary.infinite negative).toBits =
      (if negative then 2 ^ 63 else 0) + 2047 * 2 ^ 52 := by
    cases negative <;> norm_num [Binary.toBits, Binary.toBits.signBit]
  rw [Binary.toFloat, bits, view_ofBits_signed negative (by norm_num),
    Nat.mul_div_cancel _ (by norm_num), Nat.mul_mod_left, ofFields, if_pos rfl, if_pos rfl]

theorem toBits_finite (negative : Bool) (m : ℕ) (e : ℤ) :
    (Binary.finite negative m e).toBits =
      if m < 2 ^ 52 then (if negative then 2 ^ 63 else 0) + m
      else (if negative then 2 ^ 63 else 0) + (e + 1075).toNat * 2 ^ 52 + (m - 2 ^ 52) := rfl

/-- A mantissa and an exponent that fit the format are kept by the bits. -/
theorem view_toFloat_finite (negative : Bool) {m : ℕ} {e : ℤ} (small : m < 2 ^ 53)
    (least : -1074 ≤ e) (greatest : e ≤ 971) (full : 2 ^ 52 ≤ m ∨ e = -1074) :
    view (Binary.finite negative m e).toFloat =
      if zero : m = 0 then .zero (signOf negative)
      else .finite (signOf negative) m e (Nat.pos_of_ne_zero zero) := by
  by_cases short : m < 2 ^ 52
  · obtain rfl : e = -1074 := full.resolve_left (by omega)
    rw [Binary.toFloat, toBits_finite, if_pos short, view_ofBits_signed negative (by omega),
      Nat.div_eq_of_lt short, Nat.mod_eq_of_lt short, ofFields, if_neg (by norm_num), if_pos rfl]
  · have exponent : ((e + 1075).toNat * 2 ^ 52 + (m - 2 ^ 52)) / 2 ^ 52 = (e + 1075).toNat := by
      omega
    have mantissa : ((e + 1075).toNat * 2 ^ 52 + (m - 2 ^ 52)) % 2 ^ 52 = m - 2 ^ 52 := by omega
    rw [Binary.toFloat, toBits_finite, if_neg short, Nat.add_assoc,
      view_ofBits_signed negative (by omega), exponent, mantissa, ofFields, if_neg (by omega),
      if_neg (by omega), dif_neg (by omega)]
    exact finite_congr (by omega) (by omega)

/-! ## Rounding -/

theorem scaleByTwo_spec (num : ℕ) {den : ℕ} (den_pos : 0 < den) (e : ℤ) :
    0 < (scaleByTwo num den e).2 ∧
      ((scaleByTwo num den e).1 : ℚ) / (scaleByTwo num den e).2 = num / den * 2 ^ e := by
  cases e with
  | ofNat e =>
      refine ⟨den_pos, ?_⟩
      rw [scaleByTwo, Nat.pow_eq, Int.ofNat_eq_natCast, zpow_natCast]
      push_cast
      ring
  | negSucc e =>
      refine ⟨Nat.mul_pos den_pos (Nat.pow_pos (by norm_num)), ?_⟩
      rw [scaleByTwo, Nat.pow_eq, zpow_negSucc, ← div_eq_mul_inv, div_div]
      push_cast
      rfl

/-- A fraction lies between the powers of two that the lengths of its parts tell. -/
theorem log_fraction {num den : ℕ} (num_pos : 0 < num) (den_pos : 0 < den) :
    Int.log 2 ((num : ℚ) / den) < num.log2 + 1 - den.log2 ∧
      (num.log2 : ℤ) - den.log2 - 1 ≤ Int.log 2 ((num : ℚ) / den) := by
  have pos : (0 : ℚ) < num / den := div_pos (by exact_mod_cast num_pos) (by exact_mod_cast den_pos)
  have two_zpow_pos (i : ℤ) : (0 : ℚ) < 2 ^ i := zpow_pos (by norm_num) i
  have num_lt : (num : ℚ) < 2 ^ (num.log2 + 1 : ℤ) := by
    have : num < 2 ^ (num.log2 + 1) := Nat.lt_log2_self
    exact_mod_cast this
  have den_lt : (den : ℚ) < 2 ^ (den.log2 + 1 : ℤ) := by
    have : den < 2 ^ (den.log2 + 1) := Nat.lt_log2_self
    exact_mod_cast this
  have le_num : (2 : ℚ) ^ (num.log2 : ℤ) ≤ num := by
    rw [zpow_natCast]
    exact_mod_cast Nat.log2_self_le num_pos.ne'
  have le_den : (2 : ℚ) ^ (den.log2 : ℤ) ≤ den := by
    rw [zpow_natCast]
    exact_mod_cast Nat.log2_self_le den_pos.ne'
  constructor
  · apply (lt_two_zpow_iff pos _).1
    rw [zpow_sub₀ (by norm_num)]
    exact div_lt_div₀ num_lt le_den (two_zpow_pos _).le (two_zpow_pos _)
  · apply (two_zpow_le_iff pos _).1
    rw [show (num.log2 : ℤ) - den.log2 - 1 = num.log2 - (den.log2 + 1) by ring,
      zpow_sub₀ (by norm_num)]
    exact div_le_div₀ (Nat.cast_nonneg num) le_num (by exact_mod_cast den_pos) den_lt.le

/-- The exponent that is chosen for a fraction is that of its unit in the last place. -/
theorem exponentFor_eq {num den : ℕ} (num_pos : 0 < num) (den_pos : 0 < den) :
    Number.Format.binary64.exponentFor num den = ulpExponent (num / den) := by
  have pos : (0 : ℚ) < num / den := div_pos (by exact_mod_cast num_pos) (by exact_mod_cast den_pos)
  obtain ⟨less, at_least⟩ := log_fraction num_pos den_pos
  generalize low_eq : (num.log2 : ℤ) - den.log2 - 53 = low
  obtain ⟨scaled_pos, scaled⟩ := scaleByTwo_spec num den_pos (-low)
  have chosen : Number.Format.binary64.exponentFor num den =
      max (if (scaleByTwo num den (-low)).1 < (scaleByTwo num den (-low)).2 * 2 ^ 53
        then low else low + 1) (-1074) := by
    rw [← low_eq]
    rfl
  have fits_iff : (scaleByTwo num den (-low)).1 < (scaleByTwo num den (-low)).2 * 2 ^ 53 ↔
      Int.log 2 ((num : ℚ) / den) < 53 + low := by
    rw [← lt_two_zpow_iff pos, zpow_add₀ (by norm_num), ← div_lt_iff₀ (zpow_pos (by norm_num) _),
      div_eq_mul_inv, ← zpow_neg, ← scaled, div_lt_iff₀ (by exact_mod_cast scaled_pos), mul_comm]
    exact_mod_cast Iff.rfl
  rw [chosen, ulpExponent]
  split
  · next fits =>
      have := fits_iff.1 fits
      omega
  · next too_long =>
      have := fun less => too_long (fits_iff.2 less)
      omega

/-- A quotient of natural numbers is rounded to the nearest one, a half to the even one. -/
theorem roundEven_div (num : ℕ) {den : ℕ} (den_pos : 0 < den) :
    roundEven ((num : ℚ) / den) = roundQuotient num den := by
  have den_pos' : (0 : ℚ) < den := by exact_mod_cast den_pos
  have floor_eq : ⌊(num : ℚ) / den⌋ = (num / den : ℕ) := Rat.floor_natCast_div_natCast num den
  have fract_eq : Int.fract ((num : ℚ) / den) = (num % den : ℕ) / den := by
    have parts : (num : ℚ) = den * (num / den : ℕ) + (num % den : ℕ) := by
      exact_mod_cast (Nat.div_add_mod num den).symm
    rw [Int.fract, floor_eq, Int.cast_natCast, eq_div_iff den_pos'.ne', sub_mul,
      div_mul_cancel₀ _ den_pos'.ne']
    linarith
  have below_half : Int.fract ((num : ℚ) / den) < 1 / 2 ↔ 2 * (num % den) < den := by
    rw [fract_eq, div_lt_div_iff₀ den_pos' (by norm_num), one_mul, mul_comm]
    exact_mod_cast Iff.rfl
  have above_half : 1 / 2 < Int.fract ((num : ℚ) / den) ↔ den < 2 * (num % den) := by
    rw [fract_eq, div_lt_div_iff₀ (by norm_num) den_pos', one_mul, mul_comm]
    exact_mod_cast Iff.rfl
  simp only [roundEven, below_half, above_half, floor_eq, roundQuotient, Bool.or_eq_true,
    decide_eq_true_eq, Bool.and_eq_true, beq_iff_eq]
  split_ifs <;> omega

section Rounding

variable {num den r : ℕ}

/-- A fraction that is not zero is rounded to a mantissa at its unit in the last place. -/
theorem roundFraction_of_pos (num_pos : 0 < num) (den_pos : 0 < den)
    (mantissa : roundEven (num / den / ulp (num / den)) = r) :
    Number.Format.binary64.roundFraction num den =
      if r = 2 ^ 53 then
        if 971 < ulpExponent (num / den) + 1 then none
        else some (2 ^ 52, ulpExponent (num / den) + 1)
      else if 971 < ulpExponent (num / den) then none
      else some (r, ulpExponent (num / den)) := by
  obtain ⟨scaled_pos, scaled⟩ := scaleByTwo_spec num den_pos (-ulpExponent (num / den))
  have rounded : roundQuotient (scaleByTwo num den (-ulpExponent (num / den))).1
      (scaleByTwo num den (-ulpExponent (num / den))).2 = r := by
    have quotient := roundEven_div (scaleByTwo num den (-ulpExponent (num / den))).1 scaled_pos
    rw [scaled, zpow_neg, ← div_eq_mul_inv, ← ulp, mantissa] at quotient
    exact_mod_cast quotient.symm
  rw [Format.roundFraction, if_neg num_pos.ne', exponentFor_eq num_pos den_pos]
  dsimp only
  rw [rounded]
  have full : Nat.pow 2 Number.Format.binary64.precision = 2 ^ 53 := rfl
  rw [full]
  by_cases carry : r = 2 ^ 53
  · rw [if_pos carry, if_pos carry]
    rfl
  · rw [if_neg carry, if_neg carry]
    rfl

/-- What the bits of a rounded fraction say. Beyond the range of doubles it is infinite. -/
theorem view_floatOfFraction (negative : Bool) (num_pos : 0 < num) (den_pos : 0 < den)
    (mantissa : roundEven (num / den / ulp (num / den)) = r) :
    view (floatOfFraction negative num den) =
      clamp (ofMantissa (signOf negative) r (ulpExponent (num / den))) := by
  have pos : (0 : ℚ) < num / den := div_pos (by exact_mod_cast num_pos) (by exact_mod_cast den_pos)
  have least : -1074 ≤ ulpExponent ((num : ℚ) / den) := le_max_right _ _
  have full := le_mantissa pos mantissa
  have at_most := mantissa_le pos mantissa
  rw [floatOfFraction, Format.ofFraction, roundFraction_of_pos num_pos den_pos mantissa, ofMantissa]
  by_cases carry : r = 2 ^ 53
  · rw [if_pos carry, if_pos carry, clamp]
    by_cases beyond : 971 < ulpExponent ((num : ℚ) / den) + 1
    · rw [if_pos beyond, if_neg (by omega), view_toFloat_infinite]
    · rw [if_neg beyond, if_pos (by omega), view_toFloat_finite negative (by norm_num) (by omega)
        (by omega) (.inl le_rfl), dif_neg (by norm_num)]
  · rw [if_neg carry, if_neg carry]
    by_cases beyond : 971 < ulpExponent ((num : ℚ) / den)
    · have some_bit : r ≠ 0 := by omega
      rw [if_pos beyond, dif_neg some_bit, clamp, if_neg (by omega), view_toFloat_infinite]
    · rw [if_neg beyond, view_toFloat_finite negative (by omega) least (by omega) full]
      split
      · rfl
      · rw [clamp, if_pos (by omega)]

/-- A fraction becomes the nearest double, with the sign that it is given. -/
theorem isNearest_floatOfFraction (negative : Bool) (num : ℕ) (den_pos : 0 < den) :
    IsNearest (floatOfFraction negative num den) (signed (signOf negative) (num / den)) := by
  rcases Nat.eq_zero_or_pos num with rfl | num_pos
  · have zero : Number.Format.binary64.ofFraction negative 0 den = .finite negative 0 (-1074) := by
      rw [Format.ofFraction, Format.roundFraction, if_pos rfl]
      rfl
    rw [Nat.cast_zero, zero_div, signed_zero]
    refine ⟨.zero (signOf negative), ⟨rfl, trivial, ?_⟩, ?_⟩
    · rw [nearest_of_nonneg le_rfl, roundMagnitude_zero]
      rfl
    · rw [floatOfFraction, zero, view_toFloat_finite negative (by norm_num) le_rfl (by norm_num)
        (.inr rfl)]
      rfl
  · have pos : (0 : ℚ) < num / den :=
      div_pos (by exact_mod_cast num_pos) (by exact_mod_cast den_pos)
    obtain ⟨r, mantissa⟩ : ∃ r : ℕ, roundEven (num / den / ulp (num / den)) = r := by
      refine Int.eq_ofNat_of_zero_le (le_roundEven ?_)
      rw [Int.cast_zero]
      exact (div_pos pos (ulp_pos _)).le
    exact ⟨_, rounded_ofMantissa (signOf negative) pos mantissa,
      view_floatOfFraction negative num_pos den_pos mantissa⟩

end Rounding

/-! ## Integers -/

theorem signed_natAbs (i : ℤ) : signed (signOf (decide (i < 0))) (i.natAbs / (1 : ℕ)) = i := by
  rw [Nat.cast_one, div_one, Nat.cast_natAbs, Int.cast_abs]
  rcases lt_or_ge i 0 with negative | nonneg
  · have : (i : ℚ) < 0 := by exact_mod_cast negative
    rw [decide_eq_true negative, signOf, signed, abs_of_neg this, neg_neg]
  · have : (0 : ℚ) ≤ i := by exact_mod_cast nonneg
    rw [decide_eq_false (not_lt.2 nonneg), signOf, signed, abs_of_nonneg this]

/-- An integer whose nearest double is finite is read as that double. -/
theorem floatOfInt?_of_finite {i : ℤ}
    (finite : (floatOfFraction (decide (i < 0)) i.natAbs 1).isFinite = true) :
    floatOfInt? i = some (floatOfFraction (decide (i < 0)) i.natAbs 1) := by
  rw [isFinite_eq, floatOfFraction, Format.ofFraction] at finite
  rw [floatOfInt?, floatOfFraction, Format.ofFraction]
  split at finite
  · rw [view_toFloat_infinite] at finite
    cases finite
  · rfl

theorem fits_two_pow {n : ℕ} (range : n < 1024) : Fits (2 ^ n) := by
  have pos : (0 : ℚ) < 2 ^ n := by positivity
  refine ⟨⟨1, n, by norm_num, by omega, ?_⟩, ?_⟩
  · rw [abs_of_pos pos, Nat.cast_one, one_mul, zpow_natCast]
  · rw [abs_of_pos pos, limit, ← zpow_natCast]
    exact zpow_lt_zpow_right₀ (by norm_num) (by exact_mod_cast range)

/-- Integers of a machine word are read as finite doubles. -/
theorem exists_floatOfInt? {i : ℤ} (low : -2 ^ 63 ≤ i) (high : i < 2 ^ 64) :
    ∃ x, floatOfInt? i = some x ∧ x.isFinite = true ∧ IsNearest x i := by
  have near := isNearest_floatOfFraction (decide (i < 0)) i.natAbs Nat.one_pos
  rw [signed_natAbs] at near
  have finite := (near.between (fits_two_pow (n := 63) (by norm_num)).neg
    (fits_two_pow (n := 64) (by norm_num)) (by exact_mod_cast low) (by exact_mod_cast high.le)).1
  exact ⟨_, floatOfInt?_of_finite finite, finite, near⟩

/-! ## The range of doubles -/

/-- Halfway between the greatest double and the power of two beyond it. From here on the nearest
double is infinite. -/
def overflowBound : ℚ := 2 ^ (1024 : ℤ) - 2 ^ (970 : ℤ)

theorem overflowBound_pos : 0 < overflowBound :=
  sub_pos.2 (zpow_lt_zpow_right₀ (by norm_num) (by norm_num))

theorem limit_eq : limit = 2 ^ 53 * 2 ^ (971 : ℤ) := by
  rw [limit, ← zpow_natCast (2 : ℚ) 53, ← zpow_add₀ (by norm_num)]
  rfl

/-- The bound in units of the highest doubles. -/
theorem overflowBound_eq : overflowBound = (((2 ^ 53 - 1 : ℤ) : ℚ) + 1 / 2) * 2 ^ (971 : ℤ) := by
  have half_unit : (2 : ℚ) ^ (970 : ℤ) = 2 ^ (971 : ℤ) * 2⁻¹ :=
    zpow_sub_one₀ (by norm_num) 971
  rw [overflowBound, ← limit, limit_eq, half_unit]
  generalize (2 : ℚ) ^ (971 : ℤ) = unit
  push_cast
  ring

/-- Below one half above an integer nothing is rounded past the integer. -/
theorem roundEven_le_of_lt_half {n : ℤ} {y : ℚ} (below : y < n + 1 / 2) : roundEven y ≤ n := by
  have floor_le : ⌊y⌋ ≤ n := Int.lt_add_one_iff.1 (Int.floor_lt.2 (by push_cast; linarith))
  rcases floor_le.lt_or_eq with less | same
  · exact (roundEven_le_floor_add_one y).trans less
  · have parts : (⌊y⌋ : ℚ) + Int.fract y = y := Int.floor_add_fract y
    rw [same] at parts
    rw [roundEven, if_pos (by linarith), same]

/-- The unit of the highest doubles. -/
theorem ulpExponent_of_highest {x : ℚ} (at_least : 2 ^ (1023 : ℤ) ≤ x) (below : x < limit) :
    ulpExponent x = 971 := by
  have pos : 0 < x := (zpow_pos (by norm_num) _).trans_le at_least
  have least := (two_zpow_le_iff pos 1023).1 at_least
  have greatest := (lt_two_zpow_iff pos 1024).1 below
  rw [ulpExponent]
  omega

/-- Halfway the odd one of the two neighbours is the greatest double. -/
theorem nearest_overflowBound : nearest overflowBound = limit := by
  have unit_pos : (0 : ℚ) < 2 ^ (971 : ℤ) := zpow_pos (by norm_num) _
  have at_least : 2 ^ (1023 : ℤ) ≤ overflowBound := by
    have highest : (2 : ℚ) ^ (1023 : ℤ) = 2 ^ 52 * 2 ^ (971 : ℤ) := by
      rw [← zpow_natCast (2 : ℚ) 52, ← zpow_add₀ (by norm_num)]
      rfl
    rw [highest, overflowBound_eq]
    exact mul_le_mul_of_nonneg_right (by norm_num) unit_pos.le
  have below : overflowBound < limit := sub_lt_self _ (zpow_pos (by norm_num) _)
  have half : roundEven (((2 ^ 53 - 1 : ℤ) : ℚ) + 1 / 2) = 2 ^ 53 := by
    have floor_eq : ⌊((2 ^ 53 - 1 : ℤ) : ℚ) + 1 / 2⌋ = 2 ^ 53 - 1 := by
      rw [Int.floor_intCast_add]
      norm_num
    have fract_eq : Int.fract (((2 ^ 53 - 1 : ℤ) : ℚ) + 1 / 2) = 1 / 2 := by
      rw [Int.fract_intCast_add]
      norm_num
    rw [roundEven, fract_eq, if_neg (lt_irrefl _), if_neg (lt_irrefl _), floor_eq]
    norm_num
  rw [nearest_of_nonneg overflowBound_pos.le, roundMagnitude, ulp,
    ulpExponent_of_highest at_least below, overflowBound_eq,
    mul_div_cancel_right₀ _ unit_pos.ne', half, limit_eq, Int.cast_pow, Int.cast_ofNat]

/-- A number that is not negative is rounded to one within the range if it lies below the bound. -/
theorem nearest_lt_limit_iff {x : ℚ} (nonneg : 0 ≤ x) : nearest x < limit ↔ x < overflowBound := by
  refine ⟨fun within => ?_, fun below => ?_⟩
  · by_contra beyond
    have := nearest_mono (not_lt.1 beyond)
    rw [nearest_overflowBound] at this
    exact absurd within (not_lt.2 this)
  · have unit_pos : (0 : ℚ) < 2 ^ (971 : ℤ) := zpow_pos (by norm_num) _
    rcases lt_or_ge x (2 ^ (1023 : ℤ)) with low | highest
    · have power : Fits ((2 : ℚ) ^ (1023 : ℤ)) := fits_two_pow (n := 1023) (by norm_num)
      have rounded := nearest_mono low.le
      rw [nearest_of_hasBits power.bits] at rounded
      exact rounded.trans_lt (zpow_lt_zpow_right₀ (by norm_num) (by norm_num))
    · have unit : ulpExponent x = 971 :=
        ulpExponent_of_highest highest (below.trans (sub_lt_self _ (zpow_pos (by norm_num) _)))
      have mantissa : roundEven (x / 2 ^ (971 : ℤ)) ≤ 2 ^ 53 - 1 :=
        roundEven_le_of_lt_half ((div_lt_iff₀ unit_pos).2 (below.trans_eq overflowBound_eq))
      rw [nearest_of_nonneg nonneg, roundMagnitude, ulp, unit, limit_eq]
      generalize roundEven (x / 2 ^ (971 : ℤ)) = r at mantissa ⊢
      have short : (r : ℚ) < 2 ^ 53 := by exact_mod_cast Int.le_sub_one_iff.1 mantissa
      exact mul_lt_mul_of_pos_right short unit_pos

/-- A fraction becomes a finite double exactly if it lies below the bound. -/
theorem isFinite_floatOfFraction_iff (negative : Bool) (num : ℕ) {den : ℕ} (den_pos : 0 < den) :
    (floatOfFraction negative num den).isFinite = true ↔ (num / den : ℚ) < overflowBound := by
  have nonneg : (0 : ℚ) ≤ num / den := div_nonneg (Nat.cast_nonneg _) (Nat.cast_nonneg _)
  have near := isNearest_floatOfFraction negative num den_pos
  have magnitude : |nearest (signed (signOf negative) (num / den))| = nearest (num / den) := by
    cases negative with
    | true => rw [signOf, signed, nearest_neg, abs_neg, abs_of_nonneg (nearest_nonneg nonneg)]
    | false => rw [signOf, signed, abs_of_nonneg (nearest_nonneg nonneg)]
  rw [← nearest_lt_limit_iff nonneg, ← magnitude]
  constructor
  · intro finite
    rw [← near.real_eq finite]
    exact (fits_real _).range
  · exact fun within => (near.of_range within).1

/-- The finite numbers whose nearest double is finite. -/
def InRangeOfDoubles : Binary → Prop
  | .finite _ mantissa exponent => (mantissa : ℚ) * 2 ^ exponent < overflowBound
  | _ => False

theorem nearestDouble_finite (negative : Bool) (m : ℕ) (e : ℤ) :
    (Binary.finite negative m e).nearestDouble =
      floatOfFraction negative (scaleByTwo m 1 e).1 (scaleByTwo m 1 e).2 := rfl

theorem isFinite_nearestDouble_iff (x : Binary) :
    x.nearestDouble.isFinite = true ↔ InRangeOfDoubles x := by
  cases x with
  | nan => exact iff_of_false (by decide +kernel) id
  | infinite negative => exact iff_of_false (by cases negative <;> decide +kernel) id
  | finite negative m e =>
      obtain ⟨den_pos, value⟩ := scaleByTwo_spec m Nat.one_pos e
      rw [nearestDouble_finite, isFinite_floatOfFraction_iff _ _ den_pos, value, Nat.cast_one,
        div_one, InRangeOfDoubles]

/-- The nearest double of a finite number may be infinite, but there is one. -/
theorem isNaN_nearestDouble {x : Binary} (finite : x.isFinite = true) :
    x.nearestDouble.isNaN = false := by
  cases x with
  | nan => cases finite
  | infinite _ => cases finite
  | finite negative m e =>
      obtain ⟨den_pos, -⟩ := scaleByTwo_spec m Nat.one_pos e
      obtain ⟨f, ⟨f_finite, -, -⟩, viewed⟩ := isNearest_floatOfFraction negative _ den_pos
      rw [Bool.eq_false_iff, nearestDouble_finite, Ne, isNaN_iff, viewed]
      cases f with
      | finite s m e m_pos =>
          rw [clamp]
          split <;> simp
      | infinity s => cases f_finite
      | notANumber => cases f_finite
      | zero s => simp [clamp]

end PointPattern.Double
