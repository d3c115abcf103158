/-
# The value of an unpacked double

A finite double is a signed mantissa times a power of two. Every operation forms its
exact result with some bits to spare, drops bits until fifty-three are left, and keeps
in two more bits what it needs to know about the rest. This is rounding to the nearest
number with fifty-three bits, applied to the exact result.
-/

import PointPattern.Proofs.Double.Rounding

namespace PointPattern.Double

open Float.Model Float.Model.UnpackedFloat

/-- A magnitude with a sign. -/
def signed (s : Sign) (x : ℚ) : ℚ :=
  match s with
  | .negative => -x
  | .positive => x

/-- The value of a finite double; zero for the other ones. -/
def value : UnpackedFloat → ℚ
  | .finite s m e _ => signed s (m * 2 ^ e)
  | _ => 0

/-- The mantissa has fifty-three bits unless the exponent is the least one. -/
def Canonical : UnpackedFloat → Prop
  | .finite _ m e _ => m < 2 ^ 53 ∧ -1074 ≤ e ∧ (2 ^ 52 ≤ m ∨ e = -1074)
  | _ => True

/-- A finite double that is not yet packed, with the nearest value to a number. -/
structure Rounded (f : UnpackedFloat) (q : ℚ) : Prop where
  finite : f.isFinite = true
  canonical : Canonical f
  value_eq : value f = nearest q

/-! ## Mantissas with two more bits -/

/-- Where a number lies between a mantissa and the next one. -/
def Represents (em : ExtendedMantissa) (y : ℚ) : Prop :=
  match em with
  | ⟨m, false, false⟩ => y = m
  | ⟨m, false, true⟩ => m < y ∧ y < m + 1 / 2
  | ⟨m, true, false⟩ => y = m + 1 / 2
  | ⟨m, true, true⟩ => m + 1 / 2 < y ∧ y < m + 1

theorem Represents.bounds {em : ExtendedMantissa} {y : ℚ} (rep : Represents em y) :
    em.mantissa ≤ y ∧ y < em.mantissa + 1 := by
  obtain ⟨m, r, s⟩ := em
  cases r <;> cases s <;> simp only [Represents] at rep ⊢ <;> constructor <;> linarith

theorem Represents.floor_eq {em : ExtendedMantissa} {y : ℚ} (rep : Represents em y) :
    ⌊y⌋ = em.mantissa :=
  Int.floor_eq_iff.2 (by exact_mod_cast rep.bounds)

/-- The two bits decide the rounding. -/
theorem Represents.roundEven_eq {em : ExtendedMantissa} {y : ℚ} (rep : Represents em y) :
    roundEven y = em.roundedMantissa := by
  have floor_eq := rep.floor_eq
  have fract_eq : Int.fract y = y - em.mantissa := by
    rw [Int.fract, floor_eq, Int.cast_natCast]
  obtain ⟨m, r, s⟩ := em
  dsimp only at floor_eq fract_eq
  rw [roundEven, floor_eq, fract_eq]
  cases r <;> cases s <;> simp only [Represents] at rep
  · rw [if_pos (by linarith)]
    rfl
  · rw [if_pos (by linarith)]
    rfl
  · rw [if_neg (by linarith), if_neg (by linarith)]
    rfl
  · rw [if_neg (by linarith), if_pos (by linarith)]
    rfl

theorem Represents.shiftRightOne {em : ExtendedMantissa} {y : ℚ} (rep : Represents em y) :
    Represents em.shiftRightOne (y / 2) := by
  obtain ⟨m, r, s⟩ := em
  have halves : (m : ℚ) = 2 * (m / 2 : ℕ) + (m % 2 : ℕ) := by
    exact_mod_cast (Nat.div_add_mod m 2).symm
  rcases Nat.mod_two_eq_zero_or_one m with even | odd
  · rw [even, Nat.cast_zero] at halves
    cases r <;> cases s <;>
      simp only [ExtendedMantissa.shiftRightOne, even, bne_self_eq_false, Bool.or_false,
        Bool.or_true, Represents] at rep ⊢ <;>
      first | linarith | constructor <;> linarith
  · rw [odd, Nat.cast_one] at halves
    have lost : (1 != 0) = true := rfl
    cases r <;> cases s <;>
      simp only [ExtendedMantissa.shiftRightOne, odd, lost, Bool.or_false, Bool.or_true,
        Represents] at rep ⊢ <;>
      first | linarith | constructor <;> linarith

theorem Represents.shiftRight {em : ExtendedMantissa} {y : ℚ} (rep : Represents em y) (n : ℕ) :
    Represents (em >>> n) (y / 2 ^ n) := by
  induction n with
  | zero =>
      rw [pow_zero, div_one]
      exact rep
  | succ n ih =>
      rw [pow_succ, ← div_div]
      exact ih.shiftRightOne

/-! ## Rounding a mantissa -/

/-- The exponent at which fifty-three bits are left. -/
theorem targetExponent_eq (m : ℕ) (e : ℤ) :
    Format.binary64.targetExponent (totalExponent m e) = max (m.log2 + e - 52) (-1074) := by
  simp only [Format.targetExponent, totalExponent, Format.mantissaBits, Format.minExponent]
  omega

/-- A mantissa that is not zero tells the unit in the last place of what it represents, and
with a small exponent so does zero. -/
theorem ulpExponent_eq {m : ℕ} {e : ℤ} {x : ℚ} (pos : 0 < x) (below : m * 2 ^ e ≤ x)
    (above : x < (m + 1) * 2 ^ e) (enough : m ≠ 0 ∨ e ≤ -1074) :
    ulpExponent x = max (m.log2 + e - 52) (-1074) := by
  have power_pos : (0 : ℚ) < 2 ^ e := zpow_pos (by norm_num) e
  by_cases some_bit : m = 0
  · subst some_bit
    have small : x < 2 ^ e := by simpa using above
    have := (lt_two_zpow_iff pos e).1 small
    rw [Nat.log2_zero, ulpExponent]
    omega
  · have at_least : (2 : ℚ) ^ (m.log2 + e : ℤ) ≤ x := by
      refine le_trans ?_ below
      rw [zpow_add₀ (by norm_num), zpow_natCast]
      exact mul_le_mul_of_nonneg_right (by exact_mod_cast Nat.log2_self_le some_bit) power_pos.le
    have less : x < 2 ^ (m.log2 + 1 + e : ℤ) := by
      apply above.trans_le
      rw [zpow_add₀ (by norm_num)]
      have : m + 1 ≤ 2 ^ (m.log2 + 1) := Nat.lt_log2_self
      exact mul_le_mul_of_nonneg_right (by exact_mod_cast this) power_pos.le
    have := (two_zpow_le_iff pos _).1 at_least
    have := (lt_two_zpow_iff pos _).1 less
    rw [ulpExponent]
    omega

/-- A quotient by the unit in the last place has at most fifty-three bits. -/
theorem div_ulp_lt {x : ℚ} (pos : 0 < x) : x / ulp x < 2 ^ 53 := by
  rw [div_lt_iff₀ (ulp_pos x), ulp, ← zpow_natCast, ← zpow_add₀ (by norm_num)]
  apply (lt_two_zpow_iff pos _).2
  have : Int.log 2 x - 52 ≤ ulpExponent x := le_max_left _ _
  push_cast
  omega

/-- It has exactly as many unless the unit is the least one. -/
theorem le_div_ulp {x : ℚ} (pos : 0 < x) (coarse : ulpExponent x ≠ -1074) :
    2 ^ 52 ≤ x / ulp x := by
  rw [le_div_iff₀ (ulp_pos x), ulp, ← zpow_natCast, ← zpow_add₀ (by norm_num)]
  apply (two_zpow_le_iff pos _).2
  have : ulpExponent x = max (Int.log 2 x - 52) (-1074) := rfl
  push_cast
  omega

theorem shiftToTargetExponent_eq (m : ℕ) (e : ℤ) (accuracy : Accuracy) :
    shiftToTargetExponent .binary64 m e accuracy =
      (ExtendedMantissa.ofMantissaAndAccuracy m accuracy >>>
          (max (m.log2 + e - 52) (-1074) - e).toNat,
        e + (max (m.log2 + e - 52) (-1074) - e).toNat) := by
  rw [shiftToTargetExponent, targetExponent_eq]
  rfl

/-- Fifty-three bits stay as they are. -/
theorem shiftToTargetExponent_of_lt {r : ℕ} {t : ℤ} (small : r < 2 ^ 53) (least : -1074 ≤ t) :
    shiftToTargetExponent .binary64 r t .exact = (⟨r, false, false⟩, t) := by
  have bits : r.log2 ≤ 52 := by
    by_cases some_bit : r = 0
    · simp [some_bit]
    · have := (Nat.log2_lt some_bit).2 small
      omega
  have nothing : (max (r.log2 + t - 52) (-1074) - t).toNat = 0 := by omega
  rw [shiftToTargetExponent_eq, nothing, Nat.cast_zero, add_zero]
  rfl

/-- A carry is one bit too many. -/
theorem shiftToTargetExponent_carry {t : ℤ} (least : -1074 ≤ t) :
    shiftToTargetExponent .binary64 (2 ^ 53) t .exact = (⟨2 ^ 52, false, false⟩, t + 1) := by
  have one : (max ((2 ^ 53 : ℕ).log2 + t - 52) (-1074) - t).toNat = 1 := by
    rw [Nat.log2_two_pow]
    omega
  rw [shiftToTargetExponent_eq, one]
  rfl

theorem roundWithAccuracy_eq {m r : ℕ} {e t u : ℤ} {accuracy : Accuracy}
    {em : ExtendedMantissa} (s : Sign)
    (first : shiftToTargetExponent .binary64 m e accuracy = (em, t))
    (second : shiftToTargetExponent .binary64 em.roundedMantissa t .exact =
      (⟨r, false, false⟩, u)) :
    roundWithAccuracy .binary64 s m e accuracy =
      if zero : r = 0 then .zero s else .finite s r u (Nat.pos_of_ne_zero zero) := by
  simp only [roundWithAccuracy, first, second]

theorem signed_zero (s : Sign) : signed s 0 = 0 := by
  cases s with
  | negative => exact neg_zero
  | positive => rfl

theorem nearest_signed (s : Sign) {x : ℚ} (nonneg : 0 ≤ x) :
    nearest (signed s x) = signed s (roundMagnitude x) := by
  cases s with
  | negative => rw [signed, nearest_neg, nearest_of_nonneg nonneg, signed]
  | positive => exact nearest_of_nonneg nonneg

/-- The double with a rounded mantissa. One bit too many is carried into the exponent. -/
def ofMantissa (s : Sign) (r : ℕ) (t : ℤ) : UnpackedFloat :=
  if r = 2 ^ 53 then .finite s (2 ^ 52) (t + 1) (by norm_num)
  else if zero : r = 0 then .zero s
  else .finite s r t (Nat.pos_of_ne_zero zero)

section Mantissa

variable {x : ℚ} {r : ℕ}

theorem mantissa_le (pos : 0 < x) (mantissa : roundEven (x / ulp x) = r) : r ≤ 2 ^ 53 := by
  have := roundEven_le (n := (2 ^ 53 : ℕ)) (by exact_mod_cast (div_ulp_lt pos).le)
  rw [mantissa] at this
  exact_mod_cast this

theorem le_mantissa (pos : 0 < x) (mantissa : roundEven (x / ulp x) = r) :
    2 ^ 52 ≤ r ∨ ulpExponent x = -1074 := by
  by_cases coarse : ulpExponent x = -1074
  · exact .inr coarse
  · have := le_roundEven (n := (2 ^ 52 : ℕ)) (by exact_mod_cast le_div_ulp pos coarse)
    rw [mantissa] at this
    exact .inl (by exact_mod_cast this)

/-- The quotient by the unit in the last place, rounded to an integer, is the mantissa of the
nearest number. -/
theorem rounded_ofMantissa (s : Sign) (pos : 0 < x) (mantissa : roundEven (x / ulp x) = r) :
    Rounded (ofMantissa s r (ulpExponent x)) (signed s x) := by
  have least : -1074 ≤ ulpExponent x := le_max_right _ _
  have full := le_mantissa pos mantissa
  have magnitude : nearest (signed s x) = signed s (r * 2 ^ ulpExponent x) := by
    rw [nearest_signed s pos.le, roundMagnitude, mantissa, ulp, Int.cast_natCast]
  rw [ofMantissa]
  split_ifs with carry zero
  · have halved : ((2 ^ 52 : ℕ) : ℚ) * 2 ^ (ulpExponent x + 1) =
        ((2 ^ 53 : ℕ) : ℚ) * 2 ^ ulpExponent x := by
      rw [zpow_add_one₀ (by norm_num)]
      push_cast
      ring
    refine ⟨rfl, ⟨by norm_num, by omega, .inl le_rfl⟩, ?_⟩
    rw [magnitude, carry, ← halved]
    rfl
  · rw [zero, Nat.cast_zero, zero_mul, signed_zero] at magnitude
    exact ⟨rfl, trivial, magnitude.symm⟩
  · have small : r < 2 ^ 53 := lt_of_le_of_ne (mantissa_le pos mantissa) carry
    exact ⟨rfl, ⟨small, least, full⟩, magnitude.symm⟩

end Mantissa

/-- Dropping bits rounds the exact result. The mantissa may vanish only if the exponent is
so small that nothing is lost by it. -/
theorem roundWithAccuracy_spec {m : ℕ} {e : ℤ} {accuracy : Accuracy} {x : ℚ} (s : Sign)
    (pos : 0 < x)
    (rep : Represents (.ofMantissaAndAccuracy m accuracy) (x / 2 ^ e))
    (enough : m ≠ 0 ∨ e ≤ -1074) (fine : e ≤ ulpExponent x) :
    Rounded (roundWithAccuracy .binary64 s m e accuracy) (signed s x) := by
  have power_pos : (0 : ℚ) < 2 ^ e := zpow_pos (by norm_num) e
  have mantissa : (ExtendedMantissa.ofMantissaAndAccuracy m accuracy).mantissa = m := by
    cases accuracy with
    | exact => rfl
    | inexact o => cases o <;> rfl
  obtain ⟨below, above⟩ := rep.bounds
  rw [mantissa] at below above
  have exponent := ulpExponent_eq pos ((le_div_iff₀ power_pos).1 below)
    ((div_lt_iff₀ power_pos).1 above) enough
  have least : -1074 ≤ ulpExponent x := le_max_right _ _
  generalize shift : (ulpExponent x - e).toNat = k
  have shifted : e + k = ulpExponent x := by omega
  -- The first shift leaves the quotient by the unit in the last place.
  have rep_shifted :
      Represents (ExtendedMantissa.ofMantissaAndAccuracy m accuracy >>> k) (x / ulp x) := by
    have := rep.shiftRight k
    rwa [div_div, ← zpow_natCast, ← zpow_add₀ (by norm_num), shifted] at this
  generalize shifted_mantissa : ExtendedMantissa.ofMantissaAndAccuracy m accuracy >>> k = em
    at rep_shifted
  have first : shiftToTargetExponent .binary64 m e accuracy = (em, ulpExponent x) := by
    rw [shiftToTargetExponent_eq, ← exponent, shift, shifted_mantissa, shifted]
  have rounded : roundWithAccuracy .binary64 s m e accuracy =
      ofMantissa s em.roundedMantissa (ulpExponent x) := by
    rw [ofMantissa]
    rcases (mantissa_le pos rep_shifted.roundEven_eq).lt_or_eq with small | carry
    · rw [roundWithAccuracy_eq s first (shiftToTargetExponent_of_lt small least), if_neg small.ne]
    · have second := shiftToTargetExponent_carry least
      rw [← carry] at second
      rw [roundWithAccuracy_eq s first second, dif_neg (by norm_num), if_pos carry]
  rw [rounded]
  exact rounded_ofMantissa s pos rep_shifted.roundEven_eq

end PointPattern.Double
