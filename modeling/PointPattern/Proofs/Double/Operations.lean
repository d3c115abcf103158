/-
# Operations on unpacked doubles

The four operations on finite doubles give the exact result, rounded. Sums and
differences bring both mantissas to the smaller exponent, where they are added as
integers; products multiply the mantissas; a quotient is formed with enough bits and the
remainder decides the rounding. The result is not packed yet, so that its exponent may
still be too large.
-/

import PointPattern.Proofs.Double.Unpacked

namespace PointPattern.Double

open Float.Model Float.Model.UnpackedFloat

variable {f g : UnpackedFloat}

/-! ## Signs and values -/

@[simp] theorem value_zero (s : Sign) : value (.zero s) = 0 := rfl

theorem signed_mul (s t : Sign) (x y : ℚ) : signed (s * t) (x * y) = signed s x * signed t y := by
  cases s with
  | negative =>
      cases t with
      | negative => exact (neg_mul_neg x y).symm
      | positive => exact (neg_mul x y).symm
  | positive =>
      cases t with
      | negative => exact (mul_neg x y).symm
      | positive => rfl

theorem signed_div (s t : Sign) (x y : ℚ) : signed (s / t) (x / y) = signed s x / signed t y := by
  cases s with
  | negative =>
      cases t with
      | negative => exact (neg_div_neg_eq x y).symm
      | positive => exact (neg_div y x).symm
  | positive =>
      cases t with
      | negative => exact (div_neg x).symm
      | positive => rfl

theorem signed_neg (s : Sign) (x : ℚ) : signed (-s) x = -signed s x := by
  cases s with
  | negative => exact (neg_neg x).symm
  | positive => rfl

theorem abs_signed (s : Sign) {x : ℚ} (nonneg : 0 ≤ x) : |signed s x| = x := by
  cases s with
  | negative => rw [signed, abs_neg, abs_of_nonneg nonneg]
  | positive => exact abs_of_nonneg nonneg

theorem nearest_zero : nearest 0 = 0 := by
  rw [nearest_of_nonneg le_rfl, roundMagnitude_zero]

/-- The value of a canonical double has few enough bits. -/
theorem Canonical.hasBits (canonical : Canonical f) : HasBits |value f| := by
  have zero_bits : HasBits |0| := ⟨0, 0, by norm_num, by norm_num, by simp⟩
  cases f with
  | finite s m e m_pos =>
      refine ⟨m, e, canonical.1, canonical.2.1, ?_⟩
      exact abs_signed s (mul_nonneg (Nat.cast_nonneg m) (zpow_pos (by norm_num) e).le)
  | infinity s => exact zero_bits
  | notANumber => exact zero_bits
  | zero s => exact zero_bits

theorem rounded_zero (s : Sign) : Rounded (.zero s) 0 := ⟨rfl, trivial, nearest_zero.symm⟩

/-- A canonical double is its own value, rounded. -/
theorem Canonical.rounded (canonical : Canonical f) (finite : f.isFinite = true) :
    Rounded f (value f) :=
  ⟨finite, canonical, (nearest_of_hasBits canonical.hasBits).symm⟩

/-! ## Normalization -/

/-- A smaller exponent makes the mantissa larger and changes no value. -/
theorem decreaseExponent_eq (m : ℕ) (e t : ℤ) :
    decreaseExponent m e t = (m * 2 ^ (e - t).toNat, e - (e - t).toNat) := by
  rw [decreaseExponent, Nat.shiftLeft_eq]

theorem represents_exact (m : ℕ) : Represents (.ofMantissaAndAccuracy m .exact) m := rfl

theorem round_spec (s : Sign) {m : ℕ} (some_bit : m ≠ 0) (e : ℤ) :
    Rounded (UnpackedFloat.round .binary64 s m e) (signed s (m * 2 ^ e)) := by
  have m_pos : (0 : ℚ) < m := by exact_mod_cast Nat.pos_of_ne_zero some_bit
  have pos : (0 : ℚ) < m * 2 ^ e := mul_pos m_pos (zpow_pos (by norm_num) e)
  have exponent : ulpExponent (m * 2 ^ e) = max (m.log2 + e - 52) (-1074) :=
    ulpExponent_eq pos le_rfl
      (mul_lt_mul_of_pos_right (lt_add_one _) (zpow_pos (by norm_num) e)) (.inl some_bit)
  generalize shift : (e - ulpExponent (m * 2 ^ e)).toNat = k
  have same : (m : ℚ) * 2 ^ e / 2 ^ (e - k) = (m * 2 ^ k : ℕ) := by
    rw [mul_div_assoc, ← zpow_sub₀ (by norm_num), sub_sub_cancel, zpow_natCast]
    push_cast
    rfl
  rw [UnpackedFloat.round, targetExponent_eq, ← exponent, decreaseExponent_eq, shift]
  refine roundWithAccuracy_spec s pos (same ▸ represents_exact _) (.inl ?_) (by omega)
  exact Nat.mul_ne_zero some_bit (by positivity)

theorem normalize_spec (m e : ℤ) (zeroSign : Sign) :
    Rounded (UnpackedFloat.normalize .binary64 m e zeroSign) (m * 2 ^ e) := by
  rw [UnpackedFloat.normalize]
  split
  · next lt =>
      have negative : m < 0 := Int.compare_eq_lt.1 lt
      have rounded := round_spec .negative (m := (-m).toNat) (by omega) e
      have magnitude : (((-m).toNat : ℕ) : ℚ) = -m := by
        exact_mod_cast Int.toNat_of_nonneg (show 0 ≤ -m by omega)
      rwa [signed, magnitude, neg_mul, neg_neg] at rounded
  · next eq =>
      have none_left : m = 0 := Int.compare_eq_eq.1 eq
      rw [none_left, Int.cast_zero, zero_mul]
      exact rounded_zero zeroSign
  · next gt =>
      have positive : 0 < m := Int.compare_eq_gt.1 gt
      have rounded := round_spec .positive (m := m.toNat) (by omega) e
      have magnitude : ((m.toNat : ℕ) : ℚ) = m := by
        exact_mod_cast Int.toNat_of_nonneg positive.le
      rwa [signed, magnitude] at rounded

/-! ## Sums and differences -/

/-- At a smaller exponent the mantissa is an integer with the same value. -/
theorem apply_decreaseExponent (s : Sign) (m : ℕ) {e t : ℤ} (le : t ≤ e) :
    ((s.apply (decreaseExponent m e t).1 : ℤ) : ℚ) * 2 ^ t = signed s (m * 2 ^ e) := by
  have same : ((m * 2 ^ (e - t).toNat : ℕ) : ℚ) * 2 ^ t = m * 2 ^ e := by
    push_cast
    rw [mul_assoc, ← zpow_natCast, Int.toNat_of_nonneg (by omega), ← zpow_add₀ (by norm_num),
      sub_add_cancel]
  rw [decreaseExponent_eq, ← same]
  cases s with
  | negative =>
      simp only [Sign.apply, signed, Int.cast_neg, Int.cast_natCast, neg_mul]
  | positive =>
      simp only [Sign.apply, signed, Int.cast_natCast]

theorem add_spec (f_finite : f.isFinite = true) (f_canonical : Canonical f)
    (g_finite : g.isFinite = true) (g_canonical : Canonical g) :
    Rounded (f.add .binary64 g) (value f + value g) := by
  cases f with
  | infinity s => cases f_finite
  | notANumber => cases f_finite
  | zero s =>
      cases g with
      | infinity t => cases g_finite
      | notANumber => cases g_finite
      | zero t =>
          have zero_or_zero : ∃ u, UnpackedFloat.add .binary64 (.zero s) (.zero t) = .zero u := by
            simp only [UnpackedFloat.add]
            split <;> exact ⟨_, rfl⟩
          obtain ⟨u, eq⟩ := zero_or_zero
          rw [eq, value_zero, value_zero, add_zero]
          exact rounded_zero u
      | finite t n e' n_pos =>
          rw [value_zero, zero_add]
          exact g_canonical.rounded g_finite
  | finite s m e m_pos =>
      cases g with
      | infinity t => cases g_finite
      | notANumber => cases g_finite
      | zero t =>
          rw [value_zero, add_zero]
          exact f_canonical.rounded f_finite
      | finite t n e' n_pos =>
          rw [value, value, ← apply_decreaseExponent s m (min_le_left e e'),
            ← apply_decreaseExponent t n (min_le_right e e'), ← add_mul, ← Int.cast_add]
          exact normalize_spec _ _ _

theorem sub_spec (f_finite : f.isFinite = true) (f_canonical : Canonical f)
    (g_finite : g.isFinite = true) (g_canonical : Canonical g) :
    Rounded (f.sub .binary64 g) (value f - value g) := by
  cases f with
  | infinity s => cases f_finite
  | notANumber => cases f_finite
  | zero s =>
      cases g with
      | infinity t => cases g_finite
      | notANumber => cases g_finite
      | zero t =>
          have zero_or_zero : ∃ u, UnpackedFloat.sub .binary64 (.zero s) (.zero t) = .zero u := by
            simp only [UnpackedFloat.sub]
            split <;> exact ⟨_, rfl⟩
          obtain ⟨u, eq⟩ := zero_or_zero
          rw [eq, value_zero, value_zero, sub_zero]
          exact rounded_zero u
      | finite t n e' n_pos =>
          rw [value_zero, zero_sub, value, ← signed_neg]
          exact Canonical.rounded (f := .finite (-t) n e' n_pos) g_canonical rfl
  | finite s m e m_pos =>
      cases g with
      | infinity t => cases g_finite
      | notANumber => cases g_finite
      | zero t =>
          rw [value_zero, sub_zero]
          exact f_canonical.rounded f_finite
      | finite t n e' n_pos =>
          rw [value, value, ← apply_decreaseExponent s m (min_le_left e e'),
            ← apply_decreaseExponent t n (min_le_right e e'), ← sub_mul, ← Int.cast_sub]
          exact normalize_spec _ _ _

/-! ## Products -/

/-- The product of the mantissas has bits enough, or its exponent is as small as it gets. -/
theorem mul_exponent_le {s t : Sign} {m n : ℕ} {e e' : ℤ} {m_pos : 0 < m} {n_pos : 0 < n}
    (f_canonical : Canonical (.finite s m e m_pos)) (g_canonical : Canonical (.finite t n e' n_pos)) :
    e + e' ≤ max ((m * n).log2 + (e + e') - 52) (-1074) := by
  by_cases full : 2 ^ 52 ≤ m * n
  · have := (Nat.le_log2 (Nat.mul_pos m_pos n_pos).ne').2 full
    omega
  · have m_le : m ≤ m * n := Nat.le_mul_of_pos_right m n_pos
    have n_le : n ≤ m * n := Nat.le_mul_of_pos_left n m_pos
    have := f_canonical.2.2
    have := g_canonical.2.2
    omega

theorem mul_spec (f_finite : f.isFinite = true) (f_canonical : Canonical f)
    (g_finite : g.isFinite = true) (g_canonical : Canonical g) :
    Rounded (f.mul .binary64 g) (value f * value g) := by
  cases f with
  | infinity s => cases f_finite
  | notANumber => cases f_finite
  | zero s =>
      rw [value_zero, zero_mul]
      cases g with
      | infinity t => cases g_finite
      | notANumber => cases g_finite
      | zero t => exact rounded_zero _
      | finite t n e' n_pos => exact rounded_zero _
  | finite s m e m_pos =>
      cases g with
      | infinity t => cases g_finite
      | notANumber => cases g_finite
      | zero t =>
          rw [value_zero, mul_zero]
          exact rounded_zero _
      | finite t n e' n_pos =>
          have m_pos' : (0 : ℚ) < m := by exact_mod_cast m_pos
          have n_pos' : (0 : ℚ) < n := by exact_mod_cast n_pos
          have power_pos : (0 : ℚ) < 2 ^ (e + e') := zpow_pos (by norm_num) _
          have product : (m : ℚ) * 2 ^ e * (n * 2 ^ e') = (m * n : ℕ) * 2 ^ (e + e') := by
            rw [zpow_add₀ (by norm_num)]
            push_cast
            ring
          have pos : (0 : ℚ) < (m * n : ℕ) * 2 ^ (e + e') := by
            push_cast
            exact mul_pos (mul_pos m_pos' n_pos') power_pos
          have some_bit : m * n ≠ 0 := (Nat.mul_pos m_pos n_pos).ne'
          rw [value, value, ← signed_mul, product]
          refine roundWithAccuracy_spec (s * t) pos ?_ (.inl some_bit) ?_
          · rw [mul_div_cancel_right₀ _ power_pos.ne']
            exact represents_exact (m * n)
          · rw [ulpExponent_eq pos le_rfl (mul_lt_mul_of_pos_right (lt_add_one _) power_pos)
              (.inl some_bit)]
            exact mul_exponent_le f_canonical g_canonical

/-! ## Quotients -/

/-- The remainder tells where the quotient lies. -/
theorem represents_quotient (m : ℕ) {n : ℕ} (n_pos : 0 < n) :
    Represents (.ofMantissaAndAccuracy (m / n) (accuracyOfFraction (m % n) n)) (m / n : ℚ) := by
  have n_pos' : (0 : ℚ) < n := by exact_mod_cast n_pos
  have rest_lt : ((m % n : ℕ) : ℚ) < n := by exact_mod_cast Nat.mod_lt m n_pos
  have whole : (m : ℚ) = n * (m / n : ℕ) + (m % n : ℕ) := by
    exact_mod_cast (Nat.div_add_mod m n).symm
  have parts : (m : ℚ) / n = (m / n : ℕ) + (m % n : ℕ) / n := by
    rw [whole, add_div, mul_div_cancel_left₀ _ n_pos'.ne']
  rw [accuracyOfFraction, parts]
  by_cases rest : m % n = 0
  · rw [if_pos rest, rest, Nat.cast_zero, zero_div, add_zero]
    rfl
  · have rest_pos : (0 : ℚ) < (m % n : ℕ) / n :=
      div_pos (by exact_mod_cast Nat.pos_of_ne_zero rest) n_pos'
    rw [if_neg rest]
    cases order : compare (2 * (m % n)) n with
    | lt =>
        have less : (2 : ℚ) * (m % n : ℕ) < n := by exact_mod_cast Nat.compare_eq_lt.1 order
        have half : ((m % n : ℕ) : ℚ) / n < 1 / 2 := by
          rw [div_lt_div_iff₀ n_pos' (by norm_num)]
          linarith
        exact ⟨by linarith, by linarith⟩
    | eq =>
        have same : (2 : ℚ) * (m % n : ℕ) = n := by exact_mod_cast Nat.compare_eq_eq.1 order
        have half : ((m % n : ℕ) : ℚ) / n = 1 / 2 := by
          rw [div_eq_div_iff n_pos'.ne' (by norm_num)]
          linarith
        rw [half]
        rfl
    | gt =>
        have more : (n : ℚ) < 2 * (m % n : ℕ) := by exact_mod_cast Nat.compare_eq_gt.1 order
        have half : 1 / 2 < ((m % n : ℕ) : ℚ) / n := by
          rw [div_lt_div_iff₀ (by norm_num) n_pos']
          linarith
        have one : ((m % n : ℕ) : ℚ) / n < 1 := (div_lt_one n_pos').2 rest_lt
        exact ⟨by linarith, by linarith⟩

/-- The exponent of a quotient before it is rounded. -/
def quotientExponent (m : ℕ) (e : ℤ) (n : ℕ) (e' : ℤ) : ℤ :=
  min (e - e') (max (m.log2 - n.log2 + (e - e') - 53) (-1074))

theorem divCore_eq (m : ℕ) (e : ℤ) (n : ℕ) (e' : ℤ) :
    divCore .binary64 m e n e' =
      (m * 2 ^ (e - e' - quotientExponent m e n e').toNat / n, quotientExponent m e n e',
        accuracyOfFraction (m * 2 ^ (e - e' - quotientExponent m e n e').toNat % n) n) := by
  have target : Format.binary64.targetExponent (totalExponent m e - totalExponent n e') =
      max (m.log2 - n.log2 + (e - e') - 53) (-1074) := by
    simp only [Format.targetExponent, totalExponent, Format.mantissaBits, Format.minExponent]
    omega
  rw [divCore, target, Nat.shiftLeft_eq]
  rfl

/-- The exponent of a quotient is small enough for all its bits. -/
theorem quotientExponent_spec {m n : ℕ} (m_pos : 0 < m) (n_pos : 0 < n) (e e' : ℤ)
    {x : ℚ} (quotient : x = m * 2 ^ e / (n * 2 ^ e')) :
    quotientExponent m e n e' ≤ -1074 ∨
      quotientExponent m e n e' ≤ ulpExponent x ∧ 2 ^ quotientExponent m e n e' ≤ x := by
  have n_pos' : (0 : ℚ) < n := by exact_mod_cast n_pos
  have m_ge : (2 : ℚ) ^ (m.log2 : ℤ) ≤ m := by
    rw [zpow_natCast]
    exact_mod_cast Nat.log2_self_le m_pos.ne'
  have n_le : (n : ℚ) ≤ 2 ^ (n.log2 + 1 : ℤ) := by
    have : n ≤ 2 ^ (n.log2 + 1) := Nat.lt_log2_self.le
    exact_mod_cast this
  have at_least : (2 : ℚ) ^ (m.log2 + e - (n.log2 + 1 + e') : ℤ) ≤ x := by
    rw [quotient, zpow_sub₀ (by norm_num), zpow_add₀ (by norm_num), zpow_add₀ (by norm_num)]
    have power_pos (i : ℤ) : (0 : ℚ) < 2 ^ i := zpow_pos (by norm_num) i
    refine div_le_div₀ ?_ ?_ (mul_pos n_pos' (power_pos e')) ?_
    · exact mul_nonneg (Nat.cast_nonneg m) (power_pos e).le
    · exact mul_le_mul_of_nonneg_right m_ge (power_pos e).le
    · exact mul_le_mul_of_nonneg_right n_le (power_pos e').le
  have pos : 0 < x := lt_of_lt_of_le (zpow_pos (by norm_num) _) at_least
  have log_ge := (two_zpow_le_iff pos _).1 at_least
  by_cases small : quotientExponent m e n e' ≤ -1074
  · exact .inl small
  · have exponent : quotientExponent m e n e' ≤ m.log2 - n.log2 + (e - e') - 53 := by
      rw [quotientExponent] at small ⊢
      omega
    have ulp_ge : Int.log 2 x - 52 ≤ ulpExponent x := le_max_left _ _
    exact .inr ⟨by omega, (two_zpow_le_iff pos _).2 (by omega)⟩

theorem div_spec (f_finite : f.isFinite = true) (g_finite : g.isFinite = true)
    (nonzero : value g ≠ 0) : Rounded (f.div .binary64 g) (value f / value g) := by
  cases g with
  | infinity t => cases g_finite
  | notANumber => cases g_finite
  | zero t => exact absurd rfl nonzero
  | finite t n e' n_pos =>
      cases f with
      | infinity s => cases f_finite
      | notANumber => cases f_finite
      | zero s =>
          rw [value_zero, zero_div]
          exact rounded_zero _
      | finite s m e m_pos =>
          have m_pos' : (0 : ℚ) < m := by exact_mod_cast m_pos
          have n_pos' : (0 : ℚ) < n := by exact_mod_cast n_pos
          have power_pos (i : ℤ) : (0 : ℚ) < 2 ^ i := zpow_pos (by norm_num) i
          have pos : (0 : ℚ) < m * 2 ^ e / (n * 2 ^ e') :=
            div_pos (mul_pos m_pos' (power_pos e)) (mul_pos n_pos' (power_pos e'))
          have exponent := quotientExponent_spec m_pos n_pos e e' rfl
          rw [value, value, ← signed_div, UnpackedFloat.div, divCore_eq]
          dsimp only
          generalize chosen : quotientExponent m e n e' = q at exponent
          have le : q ≤ e - e' := chosen ▸ min_le_left _ _
          have scaled : (m : ℚ) * 2 ^ e / (n * 2 ^ e') / 2 ^ q =
              (m * 2 ^ (e - e' - q).toNat : ℕ) / n := by
            push_cast
            rw [← zpow_natCast, Int.toNat_of_nonneg (by omega), zpow_sub₀ (by norm_num),
              zpow_sub₀ (by norm_num)]
            field_simp
          apply roundWithAccuracy_spec (s / t) pos
          · rw [scaled]
            exact represents_quotient _ n_pos
          · rcases exponent with small | ⟨_, bits⟩
            · exact .inr small
            · left
              have one_le : (1 : ℚ) ≤ (m * 2 ^ (e - e' - q).toNat : ℕ) / n := by
                rw [← scaled, one_le_div₀ (power_pos q)]
                exact bits
              rw [one_le_div₀ n_pos'] at one_le
              exact (Nat.div_pos (by exact_mod_cast one_le) n_pos).ne'
          · rcases exponent with small | ⟨fine, _⟩
            · exact small.trans (le_max_right _ _)
            · exact fine

end PointPattern.Double
