/-
# The incomplete beta function of doubles

The regularized incomplete beta function is a prefactor times a continued fraction
on the side of the mean where the fraction converges fast; the other side is one
minus that. The prefactor is the density of a beta distribution. It is written by
Stirling corrections and deviations from the mean, so that no large logarithms
cancel and small tails keep their relative accuracy.
-/

import PointPattern.Number.Binary

namespace PointPattern.Number

/-- A series for the logarithm of one plus `u` less `u`, in powers of
`u / (2 + u)`. -/
def logGapSeries (u : Float) : Float :=
  let r := u / (2 + u)
  let square := r * r
  let tail := (List.range 30).foldr
    (fun i acc => 1 / Float.ofNat (2 * i + 3) + square * acc) 0
  2 * r * square * tail - u * r

/-- The logarithm of `ratio`, less `ratio - 1`, which is given as `u`. -/
def logGap (ratio u : Float) : Float :=
  if u.abs < 0.5 then logGapSeries u else ratio.log - u

/-- The logarithm of one plus `u` for a non-negative `u`. -/
def logOnePlus (u : Float) : Float :=
  if u < 0.5 then logGapSeries u + u else (1 + u).log

/-- The remainder of Stirling's formula at a large argument. -/
def stirlingTail (z : Float) : Float :=
  let w := 1 / (z * z)
  (1 / 12 - w * (1 / 360 - w * (1 / 1260 - w * (1 / 1680 - w * (1 / 1188 -
    w * (691 / 360360 - w / 156)))))) / z

/-- The remainder of Stirling's formula. Small arguments are raised step by step. -/
def stirlingRemainder (z : Float) : Float :=
  go 20 z 0
where
  go : Nat → Float → Float → Float
    | 0, z, acc => acc + stirlingTail z
    | steps + 1, z, acc =>
      if 16 ≤ z then acc + stirlingTail z
      else go steps (z + 1) (acc + ((z + 0.5) * logOnePlus (1 / z) - 1))

/-- The circle constant. -/
def circle : Float := 3.141592653589793

/-- The density `x ^ a * y ^ b / B a b`, where `y` is `1 - x`. -/
def betaDensity (a b x y : Float) : Float :=
  let gap := b * x - a * y
  let exponent :=
    a * logGap (x * ((a + b) / a)) (gap / a) + b * logGap (y * ((a + b) / b)) (-gap / b) +
      (stirlingRemainder (a + b) - stirlingRemainder a - stirlingRemainder b)
  (a / (a + b) * (b / (2 * circle))).sqrt * exponent.exp

/-- A denominator of the continued fraction, kept away from zero. -/
def awayFromZero (x : Float) : Float := if x.abs < 1e-300 then 1e-300 else x

/-- The continued fraction of the incomplete beta function, evaluated from the
front until it stands still. -/
def betaFraction (a b x : Float) : Float :=
  let first := 1 / awayFromZero (1 - (a + b) * x / (a + 1))
  go 20000 1 1 first first
where
  go : Nat → Float → Float → Float → Float → Float
    | 0, _, _, _, value => value
    | fuel + 1, m, c, d, value =>
      let even := m * (b - m) * x / ((a + 2 * m - 1) * (a + 2 * m))
      let d := 1 / awayFromZero (1 + even * d)
      let c := awayFromZero (1 + even / c)
      let value := value * d * c
      let odd := -((a + m) * (a + b + m) * x / ((a + 2 * m) * (a + 2 * m + 1)))
      let d := 1 / awayFromZero (1 + odd * d)
      let c := awayFromZero (1 + odd / c)
      let factor := d * c
      let value := value * factor
      if (factor - 1).abs < 1e-16 then value else go fuel (m + 1) c d value

/-- The lower tail below the mean, where the fraction converges fast. -/
def betaTail (a b x y : Float) : Float := betaDensity a b x y / a * betaFraction a b x

/-- Whether a point lies below the mean of the distribution, or nearly so. -/
def belowMean (a b x : Float) : Bool := x < (a + 1) / (a + b + 2)

/-- The regularized incomplete beta function at a point from zero to one. -/
def betaLower (a b x : Float) : Float :=
  if x ≤ 0 then 0
  else if 1 ≤ x then 1
  else if belowMean a b x then betaTail a b x (1 - x)
  else 1 - betaTail b a (1 - x) x

/-- One minus the regularized incomplete beta function, without a difference of
nearly equal numbers where it is small. -/
def betaUpper (a b x : Float) : Float :=
  if x ≤ 0 then 1
  else if 1 ≤ x then 0
  else if belowMean a b x then 1 - betaTail a b x (1 - x)
  else betaTail b a (1 - x) x

end PointPattern.Number
