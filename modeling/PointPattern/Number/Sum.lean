/-
# Exactly rounded sums

Every finite double is an integral multiple of the smallest positive one, so a
sum of doubles is a sum of integers and is rounded once, at the end. The order of
the summands therefore matters only through the intermediate range check: a
prefix whose rounded sum is no longer finite ends the summation.
-/

import PointPattern.Number.Binary

namespace PointPattern.Number

/-- What can go wrong in a sum of doubles. -/
inductive SumFailure where
  /-- The sum of the finite summands so far left the range of doubles. -/
  | overflow
  /-- Both infinities occurred. -/
  | oppositeInfinities
  deriving DecidableEq, Repr

/-- A sum under way: the finite summands in units of the smallest positive
double, and which special values were met. -/
structure PartialSum where
  units : Int := 0
  positive : Bool := false
  negative : Bool := false
  invalid : Bool := false
  deriving DecidableEq, Repr

/-- The least magnitude, in units, that rounds to infinity. -/
def overflowThreshold : Nat := Nat.pow 2 2098 - Nat.pow 2 2044

/-- A finite double in units of the smallest positive double. -/
def inUnits (negative : Bool) (mantissa : Nat) (exponent : Int) : Int :=
  let size : Int := mantissa * Nat.pow 2 (exponent + 1074).toNat
  if negative then -size else size

/-- One more summand. A special value restarts the finite part, which no longer
matters for the result. The sum fails from the threshold on. A summation that carries
doubles along may also fail just below it, by rounding twice; this is left out. -/
def PartialSum.add (s : PartialSum) (x : Float) : Except SumFailure PartialSum :=
  match Binary.ofFloat x with
  | .nan => .ok { s with units := 0, invalid := true }
  | .infinite true => .ok { s with units := 0, negative := true }
  | .infinite false => .ok { s with units := 0, positive := true }
  | .finite negative mantissa exponent =>
    let units := s.units + inUnits negative mantissa exponent
    if overflowThreshold ≤ units.natAbs then .error .overflow
    else .ok { s with units }

/-- The rounded value of a completed sum. A zero sum is positive. -/
def PartialSum.result (s : PartialSum) : Except SumFailure Float :=
  if s.positive && s.negative then .error .oppositeInfinities
  else if s.invalid then .ok Binary.nan.toFloat
  else if s.positive then .ok (Binary.infinite false).toFloat
  else if s.negative then .ok (Binary.infinite true).toFloat
  else .ok (floatOfFraction (s.units < 0) s.units.natAbs (Nat.pow 2 1074))

/-- The exactly rounded sum of a list of doubles. -/
def exactSum (xs : List Float) : Except SumFailure Float :=
  (xs.foldlM PartialSum.add {}).bind PartialSum.result

end PointPattern.Number
