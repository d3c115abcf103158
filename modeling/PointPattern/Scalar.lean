/-
# Numbers that a statistic is computed in

The statistic is written once for every kind of number that offers the four
operations, a comparison, powers with integral exponents and sums of lists. Doubles
are the kind that runs: their powers and sums are rounded once, a sum may leave
their range, and a comparison with what is not a number fails. No law is assumed
here, so exact numbers and doubles share every definition.
-/

import PointPattern.Number.Power
import PointPattern.Number.Sum
import PointPattern.Number.Decimal

namespace PointPattern

/-- What a kind of number must offer beside the four operations. -/
class Scalar (K : Type) where
  ofNat : Nat → K
  /-- The value of a double. -/
  ofFloat : Float → K
  /-- Strict comparison; it fails whenever one side is not a number. -/
  less : K → K → Bool
  isFinite : K → Bool
  isNaN : K → Bool
  abs : K → K
  power : K → Int → K
  /-- The sum of a list, or the reason why there is none. -/
  sum : List K → Except Number.SumFailure K
  /-- The form in which messages show the number. -/
  written : K → String

/-- Roots and powers with arbitrary exponents, which only distances need. -/
class Roots (K : Type) where
  sqrt : K → K
  /-- The power with an arbitrary exponent. -/
  realPower : K → K → K

instance : Scalar Float where
  ofNat := Float.ofNat
  ofFloat x := x
  less x y := x < y
  isFinite := Float.isFinite
  isNaN := Float.isNaN
  abs := Float.abs
  power := Number.power
  sum := Number.exactSum
  written := Number.shortestText

instance : Roots Float where
  sqrt := Float.sqrt
  realPower := Float.pow

instance : Scalar Float32 where
  ofNat := Float32.ofNat
  ofFloat := Float.toFloat32
  less x y := x < y
  isFinite := Float32.isFinite
  isNaN := Float32.isNaN
  abs := Float32.abs
  power x n := (Number.power x.toFloat n).toFloat32
  sum xs := (Number.exactSum (xs.map Float32.toFloat)).map Float.toFloat32
  written x := Number.Format.binary32.shortestText x.toFloat

instance : Roots Float32 where
  sqrt := Float32.sqrt
  realPower := Float32.pow

/-- Kinds of numbers that also hold infinities and what is not a number. -/
class HasInfinities (K : Type) where
  isFinite : K → Bool
  isNaN : K → Bool
  isInf : K → Bool

instance : HasInfinities Float := ⟨Float.isFinite, Float.isNaN, Float.isInf⟩

namespace Scalar

variable {K : Type} [Scalar K]

/-- What is not finite and yet a number is infinite. -/
@[reducible] def hasInfinities : HasInfinities K where
  isFinite := isFinite
  isNaN := isNaN
  isInf x := !isFinite x && !isNaN x

/-- Zero of the given kind. -/
@[inline] def zero : K := ofNat 0

/-- One half of the given kind. -/
def half [Div K] : K := (ofNat 1 : K) / ofNat 2

/-- The smaller of two numbers; of equal ones the second. What is not a number
prevails. -/
@[inline] def min (x y : K) : K := if less x y || isNaN x then x else y

/-- The larger of two numbers; of equal ones the second. What is not a number
prevails. -/
@[inline] def max (x y : K) : K := if less y x || isNaN x then x else y

/-- Order of distances in a ranking: what is not a number comes last. -/
@[inline] def before (x y : K) : Bool := less x y || (isNaN y && !isNaN x)

end Scalar

end PointPattern
