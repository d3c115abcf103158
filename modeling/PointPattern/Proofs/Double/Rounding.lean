/-
# Rounding to fifty-three bits

A rational number is rounded to the nearest multiple of its unit in the last place, a
half to the even one. The unit is the power of two that leaves fifty-three significant
bits, but never less than the smallest positive double; nothing bounds it from above
here. Rounding preserves the order and changes no number that has at most fifty-three
bits, which is all that bounds on the results of operations need.
-/

import Mathlib

namespace PointPattern.Double

/-! ## The nearest integer -/

/-- The nearest integer, a half to the even one. -/
def roundEven (y : ℚ) : ℤ :=
  if Int.fract y < 1 / 2 then ⌊y⌋
  else if 1 / 2 < Int.fract y then ⌊y⌋ + 1
  else ⌊y⌋ + ⌊y⌋ % 2

theorem floor_le_roundEven (y : ℚ) : ⌊y⌋ ≤ roundEven y := by
  rw [roundEven]
  split
  · exact le_rfl
  · split <;> omega

theorem roundEven_le_floor_add_one (y : ℚ) : roundEven y ≤ ⌊y⌋ + 1 := by
  rw [roundEven]
  split
  · omega
  · split <;> omega

@[simp] theorem roundEven_intCast (n : ℤ) : roundEven n = n := by
  simp [roundEven]

theorem roundEven_mono : Monotone roundEven := by
  intro x y x_le_y
  rcases (Int.floor_mono x_le_y).lt_or_eq with below | same
  · have := roundEven_le_floor_add_one x
    have := floor_le_roundEven y
    omega
  · have parts : Int.fract x ≤ Int.fract y := by
      rw [Int.fract, Int.fract, same]
      linarith
    have even_or_odd := Int.emod_two_eq_zero_or_one ⌊y⌋
    rw [roundEven, roundEven, same]
    split_ifs <;> first | omega | linarith

theorem le_roundEven {n : ℤ} {y : ℚ} (below : n ≤ y) : n ≤ roundEven y :=
  (Int.le_floor.2 below).trans (floor_le_roundEven y)

theorem roundEven_le {n : ℤ} {y : ℚ} (above : y ≤ n) : roundEven y ≤ n := by
  have := roundEven_mono above
  rwa [roundEven_intCast] at this

/-- Zero is an integer as well, so rounding moves no number further than zero is away. -/
theorem roundEven_le_two_mul {y : ℚ} (nonneg : 0 ≤ y) : (roundEven y : ℚ) ≤ 2 * y := by
  have split_up : (⌊y⌋ : ℚ) + Int.fract y = y := Int.floor_add_fract y
  have fract_nonneg := Int.fract_nonneg y
  have floor_nonneg : (0 : ℚ) ≤ ⌊y⌋ := by exact_mod_cast Int.floor_nonneg.2 nonneg
  have even_or_odd := Int.emod_two_eq_zero_or_one ⌊y⌋
  rw [roundEven]
  split_ifs with small large
  · linarith
  · push_cast
    linarith
  · have rest : ((⌊y⌋ % 2 : ℤ) : ℚ) ≤ 1 := by exact_mod_cast (by omega : ⌊y⌋ % 2 ≤ 1)
    push_cast at rest ⊢
    linarith

/-! ## Rounding of magnitudes -/

/-- The exponent of the unit in the last place. -/
def ulpExponent (x : ℚ) : ℤ := max (Int.log 2 x - 52) (-1074)

/-- The unit in the last place. -/
def ulp (x : ℚ) : ℚ := 2 ^ ulpExponent x

theorem ulp_pos (x : ℚ) : 0 < ulp x := zpow_pos (by norm_num) _

/-- The nearest number with fifty-three bits to a number that is not negative. -/
def roundMagnitude (x : ℚ) : ℚ := roundEven (x / ulp x) * ulp x

/-- A magnitude with at most fifty-three bits above the smallest positive double. -/
def HasBits (x : ℚ) : Prop := ∃ (m : ℕ) (e : ℤ), m < 2 ^ 53 ∧ -1074 ≤ e ∧ x = m * 2 ^ e

/-- A mantissa of at most a number of bits stays below the power of two that has one more. -/
theorem mul_two_zpow_lt {m n : ℕ} (small : m < 2 ^ n) (e : ℤ) : (m : ℚ) * 2 ^ e < 2 ^ (n + e) := by
  have small' : (m : ℚ) < 2 ^ (n : ℤ) := by exact_mod_cast small
  rw [zpow_add₀ (by norm_num)]
  exact mul_lt_mul_of_pos_right small' (zpow_pos (by norm_num) e)

theorem two_zpow_le_mul {m n : ℕ} (full : 2 ^ n ≤ m) (e : ℤ) : (2 : ℚ) ^ (n + e) ≤ m * 2 ^ e := by
  have full' : (2 : ℚ) ^ (n : ℤ) ≤ m := by exact_mod_cast full
  rw [zpow_add₀ (by norm_num)]
  exact mul_le_mul_of_nonneg_right full' (zpow_pos (by norm_num) e).le

theorem lt_two_zpow_iff {x : ℚ} (pos : 0 < x) (n : ℤ) : x < 2 ^ n ↔ Int.log 2 x < n := by
  have := Int.lt_zpow_iff_log_lt (b := 2) (by norm_num) (x := n) pos
  exact_mod_cast this

theorem two_zpow_le_iff {x : ℚ} (pos : 0 < x) (n : ℤ) : 2 ^ n ≤ x ↔ n ≤ Int.log 2 x := by
  have := Int.zpow_le_iff_le_log (b := 2) (by norm_num) (x := n) pos
  exact_mod_cast this

/-- Powers of two from a unit on are whole multiples of the unit. -/
theorem two_zpow_div {a b : ℤ} (le : b ≤ a) :
    (2 : ℚ) ^ a / 2 ^ b = ((2 ^ (a - b).toNat : ℕ) : ℚ) := by
  rw [← zpow_sub₀ (by norm_num), Nat.cast_pow, ← zpow_natCast, Int.toNat_of_nonneg (by omega)]
  rfl

theorem roundMagnitude_zero : roundMagnitude 0 = 0 := by
  have := roundEven_intCast 0
  rw [Int.cast_zero] at this
  rw [roundMagnitude, zero_div, this, Int.cast_zero, zero_mul]

theorem roundMagnitude_nonneg {x : ℚ} (nonneg : 0 ≤ x) : 0 ≤ roundMagnitude x := by
  have quotient : ((0 : ℤ) : ℚ) ≤ x / ulp x := by
    rw [Int.cast_zero]
    exact div_nonneg nonneg (ulp_pos x).le
  have rounded : (0 : ℚ) ≤ roundEven (x / ulp x) := by exact_mod_cast le_roundEven quotient
  exact mul_nonneg rounded (ulp_pos x).le

/-- A power of two above a number stays above it. -/
theorem roundMagnitude_le_two_zpow {x : ℚ} {n : ℤ} (above : x ≤ 2 ^ n)
    (coarse : ulpExponent x ≤ n) : roundMagnitude x ≤ 2 ^ n := by
  have quotient : x / ulp x ≤ (((2 ^ (n - ulpExponent x).toNat : ℕ) : ℤ) : ℚ) := by
    rw [Int.cast_natCast, ← two_zpow_div coarse]
    exact div_le_div_of_nonneg_right above (ulp_pos x).le
  have rounded : (roundEven (x / ulp x) : ℚ) ≤ 2 ^ n / ulp x := by
    rw [ulp, two_zpow_div coarse]
    exact_mod_cast roundEven_le quotient
  exact (le_div_iff₀ (ulp_pos x)).1 rounded

/-- A power of two below a number stays below it. -/
theorem two_zpow_le_roundMagnitude {x : ℚ} {n : ℤ} (below : 2 ^ n ≤ x)
    (coarse : ulpExponent x ≤ n) : 2 ^ n ≤ roundMagnitude x := by
  have quotient : (((2 ^ (n - ulpExponent x).toNat : ℕ) : ℤ) : ℚ) ≤ x / ulp x := by
    rw [Int.cast_natCast, ← two_zpow_div coarse]
    exact div_le_div_of_nonneg_right below (ulp_pos x).le
  have rounded : 2 ^ n / ulp x ≤ (roundEven (x / ulp x) : ℚ) := by
    rw [ulp, two_zpow_div coarse]
    exact_mod_cast le_roundEven quotient
  exact (div_le_iff₀ (ulp_pos x)).1 rounded

theorem roundMagnitude_mono {x y : ℚ} (nonneg : 0 ≤ x) (x_le_y : x ≤ y) :
    roundMagnitude x ≤ roundMagnitude y := by
  rcases nonneg.lt_or_eq with pos | rfl
  · have exponents : ulpExponent x ≤ ulpExponent y :=
      max_le_max_right _ (sub_le_sub_right (Int.log_mono_right pos x_le_y) _)
    rcases exponents.lt_or_eq with finer | same
    · -- A power of two lies between numbers with different units.
      have log_y : ulpExponent y = Int.log 2 y - 52 := by
        have : -1074 ≤ ulpExponent x := le_max_right _ _
        have : ulpExponent y = max (Int.log 2 y - 52) (-1074) := rfl
        omega
      have log_x : Int.log 2 x - 52 ≤ ulpExponent x := le_max_left _ _
      have x_lt : x < 2 ^ Int.log 2 y := (lt_two_zpow_iff pos _).2 (by omega)
      have le_y : (2 : ℚ) ^ Int.log 2 y ≤ y :=
        (two_zpow_le_iff (pos.trans_le x_le_y) _).2 le_rfl
      exact (roundMagnitude_le_two_zpow x_lt.le (by omega)).trans
        (two_zpow_le_roundMagnitude le_y (by omega))
    · have quotients : x / ulp x ≤ y / ulp x := div_le_div_of_nonneg_right x_le_y (ulp_pos x).le
      have units : ulp y = ulp x := by rw [ulp, ulp, same]
      rw [roundMagnitude, roundMagnitude, units]
      have rounded : (roundEven (x / ulp x) : ℚ) ≤ roundEven (y / ulp x) := by
        exact_mod_cast roundEven_mono quotients
      exact mul_le_mul_of_nonneg_right rounded (ulp_pos x).le
  · rw [roundMagnitude_zero]
    exact roundMagnitude_nonneg x_le_y

/-- A number that has few enough bits is not changed. -/
theorem HasBits.roundMagnitude_eq {x : ℚ} (bits : HasBits x) : roundMagnitude x = x := by
  obtain ⟨m, e, small, least, rfl⟩ := bits
  rcases Nat.eq_zero_or_pos m with rfl | some_bit
  · rw [Nat.cast_zero, zero_mul, roundMagnitude_zero]
  · have pos : (0 : ℚ) < m * 2 ^ e :=
      mul_pos (by exact_mod_cast some_bit) (zpow_pos (by norm_num) e)
    have coarse : ulpExponent (m * 2 ^ e) ≤ e := by
      have := (lt_two_zpow_iff pos _).1 (mul_two_zpow_lt small e)
      rw [ulpExponent]
      omega
    have whole : (m * 2 ^ e : ℚ) / ulp (m * 2 ^ e) =
        ((m * 2 ^ (e - ulpExponent (m * 2 ^ e)).toNat : ℕ) : ℤ) := by
      rw [ulp, mul_div_assoc, two_zpow_div coarse]
      push_cast
      rfl
    rw [roundMagnitude, whole, roundEven_intCast, ← whole, div_mul_cancel₀ _ (ulp_pos _).ne']

/-- From one half on, the distance from one has no more bits than the number itself. -/
theorem HasBits.one_sub {x : ℚ} (bits : HasBits x) (large : 1 / 2 ≤ x) (le_one : x ≤ 1) :
    HasBits (1 - x) := by
  obtain ⟨k, e, k_lt, least, rfl⟩ := bits
  have scale_pos : (0 : ℚ) < 2 ^ e := zpow_pos (by norm_num) e
  have k_pos : 0 < k := by
    rcases Nat.eq_zero_or_pos k with rfl | pos
    · norm_num at large
    · exact pos
  -- The exponent lies between minus fifty-three and zero.
  have above : (2 : ℚ) ^ (-1 : ℤ) < 2 ^ (53 + e) :=
    calc (2 : ℚ) ^ (-1 : ℤ) ≤ k * 2 ^ e := by norm_num at large ⊢; exact large
      _ < 2 ^ (53 + e) := mul_two_zpow_lt k_lt e
  have below : (2 : ℚ) ^ (0 + e) ≤ 2 ^ (0 : ℤ) :=
    calc (2 : ℚ) ^ (0 + e) ≤ k * 2 ^ e := two_zpow_le_mul (n := 0) k_pos e
      _ ≤ 2 ^ (0 : ℤ) := le_one
  have e_ge := (zpow_lt_zpow_iff_right₀ (by norm_num)).1 above
  have e_le := (zpow_le_zpow_iff_right₀ (by norm_num)).1 below
  obtain ⟨j, j_eq⟩ : ∃ j : ℕ, e = -j := ⟨(-e).toNat, by omega⟩
  have scale : (2 : ℚ) ^ e * (2 ^ j : ℕ) = 1 := by
    rw [j_eq, zpow_neg, zpow_natCast, Nat.cast_pow, Nat.cast_ofNat]
    exact inv_mul_cancel₀ (by positivity)
  have k_le : k ≤ 2 ^ j := by
    have : (k : ℚ) * 2 ^ e ≤ (2 ^ j : ℕ) * 2 ^ e := by linarith
    exact_mod_cast le_of_mul_le_mul_right this scale_pos
  have j_small : 2 ^ j ≤ 2 ^ 53 := Nat.pow_le_pow_right (by norm_num) (by omega)
  refine ⟨2 ^ j - k, e, by omega, least, ?_⟩
  rw [Nat.cast_sub k_le, sub_mul]
  linarith

theorem roundMagnitude_le_two_mul {x : ℚ} (nonneg : 0 ≤ x) : roundMagnitude x ≤ 2 * x := by
  have rounded := roundEven_le_two_mul (div_nonneg nonneg (ulp_pos x).le)
  calc roundMagnitude x
      ≤ 2 * (x / ulp x) * ulp x := mul_le_mul_of_nonneg_right rounded (ulp_pos x).le
    _ = 2 * x := by rw [mul_assoc, div_mul_cancel₀ _ (ulp_pos x).ne']

/-- Away from the smallest numbers rounding commutes with doubling. -/
theorem roundMagnitude_two_mul {x : ℚ} (normal : 1 ≤ x) :
    roundMagnitude (2 * x) = 2 * roundMagnitude x := by
  have pos : 0 < x := by linarith
  have log_nonneg : 0 ≤ Int.log 2 x := (two_zpow_le_iff pos 0).1 (by simpa using normal)
  have doubled : Int.log 2 (2 * x) = Int.log 2 x + 1 := by
    have below : (2 : ℚ) ^ (Int.log 2 x + 1) ≤ 2 * x := by
      rw [zpow_add_one₀ (by norm_num)]
      linarith [(two_zpow_le_iff pos _).2 le_rfl]
    have above : 2 * x < 2 ^ (Int.log 2 x + 1 + 1) := by
      rw [zpow_add_one₀ (by norm_num)]
      linarith [(lt_two_zpow_iff pos _).2 (lt_add_one (Int.log 2 x))]
    have at_least := (two_zpow_le_iff (by linarith) _).1 below
    have at_most := (lt_two_zpow_iff (by linarith) _).1 above
    omega
  have units : ulp (2 * x) = 2 * ulp x := by
    have exponents : ulpExponent (2 * x) = ulpExponent x + 1 := by
      rw [ulpExponent, ulpExponent, doubled]
      omega
    rw [ulp, ulp, exponents, zpow_add_one₀ (by norm_num), mul_comm]
  rw [roundMagnitude, roundMagnitude, units, mul_div_mul_left _ _ (by norm_num)]
  ring

/-! ## Rounding of signed numbers -/

/-- The nearest number with fifty-three bits. -/
def nearest (q : ℚ) : ℚ := if 0 ≤ q then roundMagnitude q else -roundMagnitude (-q)

theorem nearest_of_nonneg {q : ℚ} (nonneg : 0 ≤ q) : nearest q = roundMagnitude q := if_pos nonneg

theorem nearest_neg (q : ℚ) : nearest (-q) = -nearest q := by
  rcases lt_trichotomy q 0 with neg | rfl | pos
  · rw [nearest, nearest, if_pos (by linarith), if_neg (by linarith), neg_neg]
  · rw [neg_zero, nearest, if_pos le_rfl, roundMagnitude_zero, neg_zero]
  · rw [nearest, nearest, if_neg (by linarith), if_pos pos.le, neg_neg]

theorem nearest_nonneg {q : ℚ} (nonneg : 0 ≤ q) : 0 ≤ nearest q := by
  rw [nearest_of_nonneg nonneg]
  exact roundMagnitude_nonneg nonneg

theorem nearest_mono : Monotone nearest := by
  intro p q p_le_q
  by_cases p_nonneg : 0 ≤ p
  · rw [nearest_of_nonneg p_nonneg, nearest_of_nonneg (p_nonneg.trans p_le_q)]
    exact roundMagnitude_mono p_nonneg p_le_q
  · have p_neg : nearest p ≤ 0 := by
      rw [nearest, if_neg p_nonneg]
      linarith [roundMagnitude_nonneg (show 0 ≤ -p by linarith)]
    by_cases q_nonneg : 0 ≤ q
    · exact p_neg.trans (nearest_nonneg q_nonneg)
    · rw [nearest, nearest, if_neg p_nonneg, if_neg q_nonneg]
      exact neg_le_neg (roundMagnitude_mono (by linarith) (by linarith))

/-- Rounding moves no number further than zero is away. -/
theorem abs_nearest_le (q : ℚ) : |nearest q| ≤ 2 * |q| := by
  by_cases nonneg : 0 ≤ q
  · rw [abs_of_nonneg (nearest_nonneg nonneg), abs_of_nonneg nonneg, nearest_of_nonneg nonneg]
    exact roundMagnitude_le_two_mul nonneg
  · rw [nearest, if_neg nonneg, abs_neg, abs_of_neg (not_le.1 nonneg),
      abs_of_nonneg (roundMagnitude_nonneg (by linarith))]
    exact roundMagnitude_le_two_mul (by linarith)

theorem nearest_two_mul {q : ℚ} (normal : 1 ≤ q) : nearest (2 * q) = 2 * nearest q := by
  rw [nearest_of_nonneg (by linarith), nearest_of_nonneg (by linarith),
    roundMagnitude_two_mul normal]

theorem nearest_of_hasBits {q : ℚ} (bits : HasBits |q|) : nearest q = q := by
  by_cases nonneg : 0 ≤ q
  · rw [abs_of_nonneg nonneg] at bits
    rw [nearest_of_nonneg nonneg, bits.roundMagnitude_eq]
  · rw [abs_of_neg (not_le.1 nonneg)] at bits
    rw [nearest, if_neg nonneg, bits.roundMagnitude_eq, neg_neg]

end PointPattern.Double
