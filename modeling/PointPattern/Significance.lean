/-
# Significance of the statistic

Under complete spatial randomness the mean statistic is symmetric around one half,
with a beta distribution whose two parameters are the sample size. The p-value is
the tail on the side of one half on which the statistic falls, so that equal
deviations to both sides are equally significant.
-/

import PointPattern.Error
import PointPattern.Number.Beta
import PointPattern.Scalar
import PointPattern.Value.Reading

namespace PointPattern

/-- The two tails of a beta distribution at a point from zero to one. -/
class BetaTails (K : Type) where
  /-- The regularized incomplete beta function of the parameters at a point. -/
  lower : K → K → K → K
  /-- One minus the lower tail. -/
  upper : K → K → K → K

instance : BetaTails Float where
  lower := Number.betaLower
  upper := Number.betaUpper

namespace Significance

variable {K : Type} [Scalar K] [BetaTails K]

/-- A point moved into the range from zero to one. -/
def clamp (x : K) : K :=
  if Scalar.less x Scalar.zero then Scalar.zero
  else if Scalar.less (Scalar.ofNat 1) x then Scalar.ofNat 1
  else x

/-- Whether a number is positive and finite. -/
def isShape (a : K) : Bool := Scalar.less Scalar.zero a && Scalar.isFinite a

/-- A tail of the beta distribution with positive finite parameters. Points
outside its support are moved to the nearer end. -/
def regularizedBeta (x a b : K) (upper : Bool) : Except Error K :=
  if Scalar.isNaN x then .error (.invalid .evaluationPointNaN)
  else if !isShape a then .error (.invalid (.shapeParameter "a" (Scalar.written a)))
  else if !isShape b then .error (.invalid (.shapeParameter "b" (Scalar.written b)))
  else if upper then .ok (BetaTails.upper a b (clamp x))
  else .ok (BetaTails.lower a b (clamp x))

/-- The p-value of a statistic for a sample size: the tail on its side of one
half. -/
def pValue [Div K] (x : K) (sampleSize : Nat) : Except Error K :=
  let s : K := Scalar.ofNat sampleSize
  regularizedBeta x s s (Scalar.less Scalar.half x)

/-- A tail of the beta distribution for values of any kind. -/
def regularizedBetaOf (x a b : Value) (upper : Bool) : Except Error Float := do
  let x ← x.toReal
  let a ← a.toReal
  let b ← b.toReal
  regularizedBeta x a b upper

/-- The p-value for values of any kind. The statistic is compared with one half
before it is read as a number. -/
def pValueOf (x sampleSize : Value) : Except Error Float := do
  let upper ← x.exceedsHalf
  regularizedBetaOf x sampleSize sampleSize upper

end Significance

end PointPattern
