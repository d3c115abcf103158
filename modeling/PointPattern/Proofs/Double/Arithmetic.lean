/-
# Arithmetic of doubles

An operation on finite doubles gives the double nearest to the exact result, or an
infinity if that lies beyond the range. Because rounding preserves the order, a result
between two doubles is a finite number between them. What is not a number stays so under
every operation.
-/

import PointPattern.Proofs.Double.Packing

namespace PointPattern.Double

open Float.Model Float.Model.UnpackedFloat

variable {x y z : Float} {q lo hi : ℚ}

/-- A double taken apart. -/
def view (x : Float) : UnpackedFloat := x.toModel.unpack

/-- The value of a finite double; zero for the other ones. -/
def real (x : Float) : ℚ := value (view x)

theorem canonical_view (x : Float) : Canonical (view x) := by
  have fields := unpack_ofBitVec x.toModel.toBits.toBitVec
  rw [view, Float.Model.unpack, fields]
  exact canonical_ofFields _ _ (Nat.mod_lt _ (by norm_num))

theorem inRange_view (x : Float) : InRange (view x) := by
  have fields := unpack_ofBitVec x.toModel.toBits.toBitVec
  rw [view, Float.Model.unpack, fields]
  exact inRange_ofFields _ _ (Nat.mod_lt _ (by norm_num))

theorem view_ofModel_pack {f : UnpackedFloat} (canonical : Canonical f) :
    view (.ofModel (.pack f)) = clamp f := unpack_pack canonical

theorem isFinite_eq (x : Float) : x.isFinite = (view x).isFinite := rfl

theorem clamp_of_inRange {f : UnpackedFloat} (in_range : InRange f) : clamp f = f := by
  cases f with
  | finite s m e m_pos => exact if_pos in_range
  | infinity s => rfl
  | notANumber => rfl
  | zero s => rfl

/-- The double with given bits. -/
theorem view_ofBits (b : UInt64) :
    view (.ofBits b) =
      ofFields (if b.toNat < 2 ^ 63 then .positive else .negative) (b.toNat / 2 ^ 52 % 2 ^ 11)
        (b.toNat % 2 ^ 52) := by
  have canonical := canonical_ofFields (if b.toNat < 2 ^ 63 then .positive else .negative)
    (b.toNat / 2 ^ 52 % 2 ^ 11) (Nat.mod_lt b.toNat (show 0 < 2 ^ 52 by norm_num))
  have in_range := inRange_ofFields (if b.toNat < 2 ^ 63 then .positive else .negative)
    (b.toNat % 2 ^ 52) (Nat.mod_lt (b.toNat / 2 ^ 52) (show 0 < 2 ^ 11 by norm_num))
  have fields := unpack_ofBitVec b.toBitVec
  rw [Float.ofBits, Float.Model.ofBits, fields]
  exact (view_ofModel_pack canonical).trans (clamp_of_inRange in_range)

/-! ## Numbers that are doubles -/

/-- The least power of two beyond the range of doubles. -/
def limit : ℚ := 2 ^ (1024 : ℤ)

theorem one_lt_limit : 1 < limit := one_lt_zpow₀ (by norm_num) (by norm_num)

/-- A number with few enough bits within the range of doubles. -/
structure Fits (r : ℚ) : Prop where
  bits : HasBits |r|
  range : |r| < limit

theorem lt_limit {m : ℕ} {e : ℤ} (small : m < 2 ^ 53) (exponent : e ≤ 971) :
    (m : ℚ) * 2 ^ e < limit := by
  calc (m : ℚ) * 2 ^ e < 2 ^ (53 + e) := mul_two_zpow_lt small e
    _ ≤ limit := zpow_le_zpow_right₀ (by norm_num) (by omega)

theorem limit_le {m : ℕ} {e : ℤ} (full : 2 ^ 52 ≤ m) (exponent : 972 ≤ e) :
    limit ≤ (m : ℚ) * 2 ^ e := by
  calc limit ≤ 2 ^ (52 + e) := zpow_le_zpow_right₀ (by norm_num) (by omega)
    _ ≤ m * 2 ^ e := two_zpow_le_mul full e

theorem abs_value_finite (s : Sign) (m : ℕ) (e : ℤ) (m_pos : 0 < m) :
    |value (.finite s m e m_pos)| = m * 2 ^ e :=
  abs_signed s (mul_nonneg (Nat.cast_nonneg m) (zpow_pos (by norm_num) e).le)

theorem fits_zero : Fits 0 :=
  ⟨⟨0, 0, by norm_num, by norm_num, by simp⟩, by rw [abs_zero]; linarith [one_lt_limit]⟩

theorem fits_one : Fits 1 :=
  ⟨⟨1, 0, by norm_num, by norm_num, by simp⟩, by rw [abs_one]; exact one_lt_limit⟩

theorem fits_half : Fits (1 / 2) := by
  have half_pos : (0 : ℚ) < 1 / 2 := by norm_num
  refine ⟨⟨1, -1, by norm_num, by norm_num, ?_⟩, ?_⟩
  · rw [abs_of_pos half_pos]
    norm_num
  · rw [abs_of_pos half_pos]
    linarith [one_lt_limit]

theorem Fits.neg (fits : Fits q) : Fits (-q) :=
  ⟨(abs_neg q).symm ▸ fits.bits, (abs_neg q).symm ▸ fits.range⟩

theorem fits_real (x : Float) : Fits (real x) := by
  refine ⟨(canonical_view x).hasBits, ?_⟩
  have canonical := canonical_view x
  have in_range := inRange_view x
  have zero_lt : |(0 : ℚ)| < limit := fits_zero.range
  rw [real]
  generalize view x = f at canonical in_range
  cases f with
  | finite s m e m_pos =>
      rw [abs_value_finite]
      exact lt_limit canonical.1 in_range
  | infinity s => exact zero_lt
  | notANumber => exact zero_lt
  | zero s => exact zero_lt

/-! ## Nearest doubles -/

/-- A double that is nearest to a number, or infinite beyond the range. -/
def IsNearest (z : Float) (q : ℚ) : Prop := ∃ f, Rounded f q ∧ view z = clamp f

theorem isNearest_ofModel_pack {f : UnpackedFloat} (rounded : Rounded f q) :
    IsNearest (.ofModel (.pack f)) q :=
  ⟨f, rounded, view_ofModel_pack rounded.canonical⟩

/-- A finite double is nearest to itself. -/
theorem isNearest_self (finite : x.isFinite = true) : IsNearest x (real x) :=
  ⟨view x, (canonical_view x).rounded finite, (clamp_of_inRange (inRange_view x)).symm⟩

namespace IsNearest

/-- A result within the range is the rounded number. -/
theorem of_range (near : IsNearest z q) (range : |nearest q| < limit) :
    z.isFinite = true ∧ real z = nearest q := by
  obtain ⟨f, ⟨finite, canonical, value_eq⟩, viewed⟩ := near
  have kept : clamp f = f := by
    cases f with
    | finite s m e m_pos =>
        by_cases exponent : e ≤ 971
        · exact if_pos exponent
        · have full : 2 ^ 52 ≤ m := canonical.2.2.resolve_right (by omega)
          have := limit_le full (show 972 ≤ e by omega)
          rw [← value_eq, abs_value_finite] at range
          linarith
    | infinity s => rfl
    | notANumber => rfl
    | zero s => rfl
  rw [kept] at viewed
  rw [isFinite_eq, real, viewed]
  exact ⟨finite, value_eq⟩

/-- A finite result is the rounded number. -/
theorem real_eq (near : IsNearest z q) (finite : z.isFinite = true) : real z = nearest q := by
  obtain ⟨f, ⟨f_finite, canonical, value_eq⟩, viewed⟩ := near
  rw [isFinite_eq, viewed] at finite
  rw [real, viewed, ← value_eq]
  cases f with
  | finite s m e m_pos =>
      by_cases exponent : e ≤ 971
      · rw [clamp, if_pos exponent]
      · rw [clamp, if_neg exponent] at finite
        cases finite
  | infinity s => rfl
  | notANumber => rfl
  | zero s => rfl

/-- A result between two doubles is a finite number between them. -/
theorem between (near : IsNearest z q) (lo_fits : Fits lo) (hi_fits : Fits hi) (lo_le : lo ≤ q)
    (le_hi : q ≤ hi) : z.isFinite = true ∧ lo ≤ real z ∧ real z ≤ hi := by
  have lower : lo ≤ nearest q := by
    have := nearest_mono lo_le
    rwa [nearest_of_hasBits lo_fits.bits] at this
  have upper : nearest q ≤ hi := by
    have := nearest_mono le_hi
    rwa [nearest_of_hasBits hi_fits.bits] at this
  have range : |nearest q| < limit := by
    have := abs_lt.1 lo_fits.range
    have := abs_lt.1 hi_fits.range
    exact abs_lt.2 ⟨by linarith, by linarith⟩
  obtain ⟨finite, same⟩ := near.of_range range
  exact ⟨finite, same ▸ lower, same ▸ upper⟩

/-- A number that is a double is met exactly. -/
theorem exact (near : IsNearest z q) (fits : Fits q) : z.isFinite = true ∧ real z = q := by
  have at_q := nearest_of_hasBits fits.bits
  have := near.of_range (at_q.symm ▸ fits.range)
  rwa [at_q] at this

end IsNearest

/-! ## The operations -/

theorem isNearest_add (x_finite : x.isFinite = true) (y_finite : y.isFinite = true) :
    IsNearest (x + y) (real x + real y) :=
  isNearest_ofModel_pack (add_spec x_finite (canonical_view x) y_finite (canonical_view y))

theorem isNearest_sub (x_finite : x.isFinite = true) (y_finite : y.isFinite = true) :
    IsNearest (x - y) (real x - real y) :=
  isNearest_ofModel_pack (sub_spec x_finite (canonical_view x) y_finite (canonical_view y))

theorem isNearest_mul (x_finite : x.isFinite = true) (y_finite : y.isFinite = true) :
    IsNearest (x * y) (real x * real y) :=
  isNearest_ofModel_pack (mul_spec x_finite (canonical_view x) y_finite (canonical_view y))

theorem isNearest_div (x_finite : x.isFinite = true) (y_finite : y.isFinite = true)
    (nonzero : real y ≠ 0) : IsNearest (x / y) (real x / real y) :=
  isNearest_ofModel_pack (div_spec x_finite y_finite nonzero)

/-! ## Natural numbers -/

theorem isNearest_toFloat (n : UInt64) : IsNearest n.toFloat n.toNat := by
  have rounded := normalize_spec n.toNat 0 .positive
  rw [zpow_zero, mul_one] at rounded
  exact isNearest_ofModel_pack rounded

theorem fits_natCast {n : ℕ} (small : n < 2 ^ 53) : Fits n := by
  have bits : HasBits n := ⟨n, 0, small, by norm_num, by simp⟩
  have range := lt_limit small (show (0 : ℤ) ≤ 971 by norm_num)
  rw [zpow_zero, mul_one] at range
  rw [← Nat.abs_cast n] at bits range
  exact ⟨bits, range⟩

/-- The unit that small natural numbers are multiplied by. -/
theorem real_unit :
    (Float.ofBits 0x3FF0000000000000).isFinite = true ∧ real (.ofBits 0x3FF0000000000000) = 1 := by
  have bits : (0x3FF0000000000000 : UInt64).toNat = 1023 * 2 ^ 52 := by decide
  have fields : view (.ofBits 0x3FF0000000000000) = ofFields .positive 1023 0 := by
    rw [view_ofBits, bits, if_pos (by norm_num), Nat.mul_div_cancel _ (by norm_num),
      Nat.mul_mod_left]
    rfl
  rw [isFinite_eq, real, fields]
  exact ⟨rfl, by norm_num [ofFields, value, signed]⟩

/-- A natural number becomes the nearest double. -/
theorem isNearest_ofNat (n : ℕ) : IsNearest (.ofNat n) n := by
  by_cases small : n < 2 ^ 53
  · have word : n.toUInt64.toNat = n := by
      rw [Nat.toUInt64_eq, UInt64.toNat_ofNat']
      exact Nat.mod_eq_of_lt (by omega)
    have eq : Float.ofNat n = n.toUInt64.toFloat * .ofBits 0x3FF0000000000000 :=
      dif_pos (⟨small, by norm_num⟩ : n < 2 ^ 53 ∧ 0 ≤ 22)
    have converted := isNearest_toFloat n.toUInt64
    rw [word] at converted
    obtain ⟨finite, same⟩ := converted.exact (fits_natCast small)
    have product := isNearest_mul finite real_unit.1
    rwa [same, real_unit.2, mul_one, ← eq] at product
  · have some_bit : n ≠ 0 := by
      rintro rfl
      exact small (by norm_num)
    have eq : Float.ofNat n = .ofModel (.ofScientific n 0) :=
      dif_neg fun fast : n < 2 ^ 53 ∧ 0 ≤ 22 => small fast.1
    have pos : (0 : ℚ) < n := by exact_mod_cast Nat.pos_of_ne_zero some_bit
    have formed : UnpackedFloat.ofScientific .binary64 n 0 =
        roundWithAccuracy .binary64 .positive (n <<< 53 * 10 ^ 0) (-53 + 0) .exact := by
      have few_digits : (0 : ℤ) ≤ 2 ^ Format.binary64.exponentBits := by norm_num
      rw [UnpackedFloat.ofScientific, dif_neg some_bit, if_neg (by norm_num),
        if_neg (by omega), if_pos le_rfl]
      rfl
    have scaled : (n : ℚ) / 2 ^ (-53 + 0 : ℤ) = (n <<< 53 * 10 ^ 0 : ℕ) := by
      rw [add_zero, zpow_neg, div_inv_eq_mul, Nat.shiftLeft_eq, pow_zero, mul_one]
      norm_num
    have log_nonneg : 0 ≤ Int.log 2 (n : ℚ) := by
      rw [← two_zpow_le_iff pos, zpow_zero]
      exact_mod_cast Nat.pos_of_ne_zero some_bit
    have rounded : Rounded (UnpackedFloat.ofScientific .binary64 n 0) (n : ℚ) := by
      rw [formed]
      refine roundWithAccuracy_spec .positive pos (scaled ▸ represents_exact _) (.inl ?_) ?_
      · rw [Nat.shiftLeft_eq, pow_zero, mul_one]
        exact Nat.mul_ne_zero some_bit (by norm_num)
      · have : Int.log 2 (n : ℚ) - 52 ≤ ulpExponent n := le_max_left _ _
        exact le_trans (by omega) this
    rw [eq]
    exact isNearest_ofModel_pack rounded

/-! ## Infinities and what is not a number -/

theorem isNaN_iff : x.isNaN = true ↔ view x = .notANumber := UnpackedFloat.isNaN_iff

theorem isNaN_of_isFinite {f : UnpackedFloat} (finite : f.isFinite = true) : f.isNaN = false := by
  cases f with
  | notANumber => cases finite
  | infinity s => cases finite
  | zero s => rfl
  | finite s m e m_pos => rfl

/-- Every double is finite, infinite, or not a number. -/
theorem isInf_eq (x : Float) : x.isInf = (!x.isFinite && !x.isNaN) := by
  show (view x).isInf = (!(view x).isFinite && !(view x).isNaN)
  cases view x <;> rfl

theorem view_of_notANumber {f : UnpackedFloat} (nothing : f = .notANumber) :
    view (.ofModel (.pack f)) = .notANumber := by
  rw [nothing]
  exact @unpack_packedNaN .binary64

theorem isNaN_add (nan : x.isNaN = true ∨ y.isNaN = true) : (x + y).isNaN = true := by
  rw [isNaN_iff, isNaN_iff] at nan
  refine isNaN_iff.2 (view_of_notANumber (f := (view x).add .binary64 (view y)) ?_)
  rcases nan with nan | nan
  · rw [nan]; rfl
  · rw [nan]
    cases view x <;> rfl

theorem isNaN_sub (nan : x.isNaN = true ∨ y.isNaN = true) : (x - y).isNaN = true := by
  rw [isNaN_iff, isNaN_iff] at nan
  refine isNaN_iff.2 (view_of_notANumber (f := (view x).sub .binary64 (view y)) ?_)
  rcases nan with nan | nan
  · rw [nan]; rfl
  · rw [nan]
    cases view x <;> rfl

theorem isNaN_mul (nan : x.isNaN = true) : (x * y).isNaN = true := by
  rw [isNaN_iff] at nan
  refine isNaN_iff.2 (view_of_notANumber (f := (view x).mul .binary64 (view y)) ?_)
  rw [nan]
  rfl

theorem isNaN_div (nan : x.isNaN = true) : (x / y).isNaN = true := by
  rw [isNaN_iff] at nan
  refine isNaN_iff.2 (view_of_notANumber (f := (view x).div .binary64 (view y)) ?_)
  rw [nan]
  rfl

/-- Infinity over infinity is not a number. -/
theorem isNaN_div_infinity {s t : Sign} (x_infinite : view x = .infinity s)
    (y_infinite : view y = .infinity t) : (x / y).isNaN = true := by
  refine isNaN_iff.2 (view_of_notANumber (f := (view x).div .binary64 (view y)) ?_)
  rw [x_infinite, y_infinite]
  rfl

/-- A finite number over infinity vanishes. -/
theorem real_div_infinity {s : Sign} (x_finite : x.isFinite = true)
    (y_infinite : view y = .infinity s) : (x / y).isFinite = true ∧ real (x / y) = 0 := by
  have vanishes : ∃ t, (view x).div .binary64 (view y) = .zero t := by
    rw [isFinite_eq] at x_finite
    rw [y_infinite]
    cases viewed : view x with
    | infinity t => rw [viewed] at x_finite; cases x_finite
    | notANumber => rw [viewed] at x_finite; cases x_finite
    | zero t => exact ⟨_, rfl⟩
    | finite t m e m_pos => exact ⟨_, rfl⟩
  obtain ⟨t, eq⟩ := vanishes
  have viewed : view (x / y) = .zero t := by
    have packed : view (x / y) = clamp ((view x).div .binary64 (view y)) :=
      view_ofModel_pack (eq ▸ trivial)
    rw [packed, eq]
    rfl
  rw [isFinite_eq, real, viewed]
  exact ⟨rfl, rfl⟩

end PointPattern.Double
