/-
# Exact numbers

The library computes in any kind of number that offers its operations and assumes no
law of them. This module says which laws hold where nothing is rounded: the numbers
form an ordered field, every one of them is finite, and comparison, powers and sums
are those of the field. Statements in exact arithmetic are made for all such kinds
of number, of which the rational numbers are one.
-/

import PointPattern.Scalar
import Mathlib.Algebra.Order.Field.Rat
import Mathlib.Data.Rat.Floor
import Mathlib.Data.Rat.Cast.Defs

namespace PointPattern

/-- Numbers of an ordered field that are computed without rounding. -/
class Scalar.Exact (K : Type) [Field K] [LinearOrder K] [Scalar K] : Prop where
  ofNat_eq : ∀ n : ℕ, (Scalar.ofNat n : K) = n
  ofFloat_eq : ∀ x : Float,
    (Scalar.ofFloat x : K) = (Number.signedFraction x).1 / (Number.signedFraction x).2
  less_iff : ∀ x y : K, Scalar.less x y = true ↔ x < y
  isFinite_eq : ∀ x : K, Scalar.isFinite x = true
  isNaN_eq : ∀ x : K, Scalar.isNaN x = false
  abs_eq : ∀ x : K, Scalar.abs x = |x|
  power_eq : ∀ (x : K) (n : ℤ), Scalar.power x n = x ^ n
  sum_eq : ∀ xs : List K, Scalar.sum xs = .ok xs.sum

attribute [simp] Scalar.Exact.less_iff Scalar.Exact.isFinite_eq Scalar.Exact.isNaN_eq
  Scalar.Exact.abs_eq Scalar.Exact.power_eq Scalar.Exact.sum_eq

namespace Scalar

variable {K : Type} [Field K] [LinearOrder K] [Scalar K] [Exact K]

@[simp]
theorem zero_eq : (zero : K) = 0 := by
  rw [zero, Exact.ofNat_eq, Nat.cast_zero]

@[simp]
theorem half_eq : (half : K) = 1 / 2 := by
  rw [half, Exact.ofNat_eq, Exact.ofNat_eq, Nat.cast_one, Nat.cast_ofNat]

end Scalar

/-- Rational numbers. Messages show them as fractions. -/
instance : Scalar ℚ where
  ofNat n := n
  ofFloat x := (Number.signedFraction x).1 / (Number.signedFraction x).2
  less x y := x < y
  isFinite _ := true
  isNaN _ := false
  abs x := |x|
  power x n := x ^ n
  sum xs := .ok xs.sum
  written x := toString x.num ++ "/" ++ toString x.den

instance : Scalar.Exact ℚ where
  ofNat_eq _ := rfl
  ofFloat_eq _ := rfl
  less_iff _ _ := decide_eq_true_iff
  isFinite_eq _ := rfl
  isNaN_eq _ := rfl
  abs_eq _ := rfl
  power_eq _ _ := rfl
  sum_eq _ := rfl

/-- Roots of fractions, exact for squares of fractions, and powers, exact for whole exponents. -/
instance : Roots ℚ where
  sqrt x := Nat.sqrt x.num.toNat / Nat.sqrt x.den
  realPower x y := x ^ ⌊y⌋

end PointPattern
