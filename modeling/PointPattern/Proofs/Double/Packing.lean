/-
# Packed doubles

A double is kept as a sign bit, an exponent and the mantissa without its leading bit. The
two largest values of the exponent field are not those of finite numbers, so that packing
turns a canonical double with too large an exponent into an infinity and loses nothing
otherwise. What is read off the bits is always canonical.
-/

import PointPattern.Proofs.Double.Operations

namespace PointPattern.Double

open Float.Model Float.Model.UnpackedFloat

/-- The double with these fields. -/
def ofFields (s : Sign) (exponent mantissa : ℕ) : UnpackedFloat :=
  if exponent = 2047 then
    if mantissa = 0 then .infinity s else .notANumber
  else if exponent = 0 then
    if zero : mantissa = 0 then .zero s
    else .finite s mantissa (-1074) (Nat.pos_of_ne_zero zero)
  else .finite s (2 ^ 52 + mantissa) (exponent - 1075) (Nat.add_pos_left (by norm_num) _)

/-- A double that is packed: its exponent is not too large. -/
def InRange : UnpackedFloat → Prop
  | .finite _ _ e _ => e ≤ 971
  | _ => True

/-- What becomes of a double when it is packed: a number that is too large is infinite. -/
def clamp : UnpackedFloat → UnpackedFloat
  | .finite s m e m_pos => if e ≤ 971 then .finite s m e m_pos else .infinity s
  | f => f

theorem canonical_ofFields (s : Sign) (exponent : ℕ) {mantissa : ℕ} (small : mantissa < 2 ^ 52) :
    Canonical (ofFields s exponent mantissa) := by
  rw [ofFields]
  split_ifs with special none_left least zero
  · exact trivial
  · exact trivial
  · exact trivial
  · exact ⟨by omega, le_rfl, .inr rfl⟩
  · exact ⟨by omega, by omega, .inl (by omega)⟩

theorem inRange_ofFields (s : Sign) {exponent : ℕ} (mantissa : ℕ) (field : exponent < 2 ^ 11) :
    InRange (ofFields s exponent mantissa) := by
  rw [ofFields]
  split_ifs with special none_left least zero
  · exact trivial
  · exact trivial
  · exact trivial
  · exact (by norm_num : (-1074 : ℤ) ≤ 971)
  · exact show (exponent : ℤ) - 1075 ≤ 971 by omega

/-! ## Bits and fields -/

theorem finite_congr {s : Sign} {m n : ℕ} {e e' : ℤ} {m_pos : 0 < m} {n_pos : 0 < n}
    (mantissas : m = n) (exponents : e = e') :
    UnpackedFloat.finite s m e m_pos = .finite s n e' n_pos := by
  subst mantissas exponents
  rfl

/-- Unpacking reads the fields and restores the leading bit of the mantissa. -/
theorem unpack_eq_ofFields (b : BitVec 64) :
    UnpackedFloat.unpack .binary64 b =
      ofFields (.ofBitVec (@unpackSign .binary64 b)) (@unpackExponent .binary64 b).toNat
        (@unpackMantissa .binary64 b).toNat := by
  have special : @unpackExponent .binary64 b = -1#11 ↔
      (@unpackExponent .binary64 b).toNat = 2047 := BitVec.toNat_inj.symm
  have least : @unpackExponent .binary64 b = 0#11 ↔ (@unpackExponent .binary64 b).toNat = 0 :=
    BitVec.toNat_inj.symm
  have zero : @unpackMantissa .binary64 b = 0#52 ↔ (@unpackMantissa .binary64 b).toNat = 0 :=
    BitVec.toNat_inj.symm
  have leading : (1#1 ++ @unpackMantissa .binary64 b).toNat =
      2 ^ 52 + (@unpackMantissa .binary64 b).toNat := by
    rw [BitVec.toNat_append, ← Nat.shiftLeft_add_eq_or_of_lt (BitVec.isLt _)]
    rfl
  rw [UnpackedFloat.unpack, ofFields]
  by_cases is_special : (@unpackExponent .binary64 b).toNat = 2047
  · rw [if_pos is_special, if_pos (special.2 is_special)]
    by_cases is_zero : (@unpackMantissa .binary64 b).toNat = 0
    · rw [if_pos is_zero, if_pos (zero.2 is_zero)]
    · rw [if_neg is_zero, if_neg fun eq => is_zero (zero.1 eq)]
  · rw [if_neg is_special, if_neg fun eq => is_special (special.1 eq)]
    by_cases is_least : (@unpackExponent .binary64 b).toNat = 0
    · rw [if_pos is_least, if_pos (least.2 is_least)]
      by_cases is_zero : (@unpackMantissa .binary64 b).toNat = 0
      · rw [dif_pos is_zero, dif_pos (zero.2 is_zero)]
      · rw [dif_neg is_zero, dif_neg fun eq => is_zero (zero.1 eq)]
        apply finite_congr rfl
        rw [is_least]
        rfl
    · rw [if_neg is_least, if_neg fun eq => is_least (least.1 eq)]
      exact finite_congr leading rfl

theorem toNat_unpackMantissa (b : BitVec 64) :
    (@unpackMantissa .binary64 b).toNat = b.toNat % 2 ^ 52 := by
  simp [unpackMantissa]

theorem toNat_unpackExponent (b : BitVec 64) :
    (@unpackExponent .binary64 b).toNat = b.toNat / 2 ^ 52 % 2 ^ 11 := by
  simp [unpackExponent, Nat.shiftRight_eq_div_pow]

theorem ofBitVec_unpackSign (b : BitVec 64) :
    Sign.ofBitVec (@unpackSign .binary64 b) = if b.toNat < 2 ^ 63 then .positive else .negative := by
  have bit : (@unpackSign .binary64 b).toNat = b.toNat / 2 ^ 63 % 2 := by
    simp [unpackSign, Nat.shiftRight_eq_div_pow]
  have bound := b.isLt
  have unset : @unpackSign .binary64 b = 0#1 ↔ b.toNat < 2 ^ 63 := by
    rw [← BitVec.toNat_inj, bit, BitVec.toNat_zero]
    omega
  simp only [Sign.ofBitVec, unset]

/-- The fields of a double with these bits. -/
theorem unpack_ofBitVec (b : BitVec 64) :
    UnpackedFloat.unpack .binary64 b =
      ofFields (if b.toNat < 2 ^ 63 then .positive else .negative)
        (b.toNat / 2 ^ 52 % 2 ^ 11) (b.toNat % 2 ^ 52) := by
  rw [unpack_eq_ofFields, toNat_unpackMantissa, toNat_unpackExponent, ofBitVec_unpackSign]

/-! ## Packing -/

/-- Packed fields are read back. -/
theorem unpack_packComponents (s : Sign) (exponent : BitVec 11) (mantissa : BitVec 52) :
    UnpackedFloat.unpack .binary64 (packComponents .binary64 s exponent mantissa) =
      ofFields s exponent.toNat mantissa.toNat := by
  rw [unpack_eq_ofFields, unpackMantissa_packComponents, unpackExponent_packComponents,
    unpackSign_packComponents, Sign.ofBitVec_toBitVec]

theorem unpack_packedInfinity (s : Sign) :
    UnpackedFloat.unpack .binary64 (packedInfinity .binary64 s) = .infinity s :=
  unpack_packComponents s _ _

/-- Packing loses nothing but numbers that are too large. -/
theorem unpack_pack {f : UnpackedFloat} (canonical : Canonical f) :
    UnpackedFloat.unpack .binary64 (UnpackedFloat.pack .binary64 f) = clamp f := by
  cases f with
  | infinity s => exact unpack_packedInfinity s
  | notANumber => exact unpack_packedNaN
  | zero s => exact unpack_packedZero
  | finite s m e m_pos =>
      obtain ⟨small, least, full⟩ := canonical
      have biased : (e + Format.binary64.exponentBias + Format.binary64.mantissaBitsWithoutImplicit
          : ℤ) = e + 1075 := by
        simp only [Format.exponentBias]
        omega
      rw [UnpackedFloat.pack, clamp]
      dsimp only
      rw [biased]
      by_cases in_range : e ≤ 971
      · have bits : m.log2 + 1 = 53 ↔ 2 ^ 52 ≤ m := by
          have := Nat.log2_lt m_pos.ne' (k := 53)
          have := Nat.le_log2 m_pos.ne' (k := 52)
          omega
        rw [if_pos in_range, if_neg (by omega)]
        by_cases normal : 2 ^ 52 ≤ m
        · rw [if_pos (show m.log2 + 1 = Format.binary64.mantissaBits from bits.2 normal)]
          obtain ⟨fraction, rfl⟩ := Nat.exists_eq_add_of_le normal
          have exponent : (BitVec.ofNat 11 (e + 1075).toNat).toNat = (e + 1075).toNat := by
            rw [BitVec.toNat_ofNat, Nat.mod_eq_of_lt (by omega)]
          have mantissa : (BitVec.ofNat 52 (2 ^ 52 + fraction)).toNat = fraction := by
            rw [BitVec.toNat_ofNat, Nat.add_mod_left, Nat.mod_eq_of_lt (by omega)]
          apply (unpack_packComponents s _ _).trans
          rw [exponent, mantissa, ofFields, if_neg (by omega), if_neg (by omega)]
          exact finite_congr rfl (by omega)
        · have mantissa : (BitVec.ofNat 52 m).toNat = m := by
            rw [BitVec.toNat_ofNat, Nat.mod_eq_of_lt (by omega)]
          rw [if_neg (show ¬m.log2 + 1 = Format.binary64.mantissaBits from fun eq =>
            normal (bits.1 eq))]
          apply (unpack_packComponents s _ _).trans
          rw [mantissa, BitVec.toNat_zero, ofFields, if_neg (by norm_num), if_pos rfl,
            dif_neg m_pos.ne']
          exact finite_congr rfl (by omega)
      · rw [if_neg in_range, if_pos (by omega)]
        exact unpack_packedInfinity s

end PointPattern.Double
