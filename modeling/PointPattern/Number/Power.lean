/-
# Integral powers of doubles

A power of a finite double is formed exactly as a fraction and rounded once.
Powers that certainly leave the range of doubles are not formed.
-/

import PointPattern.Number.Binary

namespace PointPattern.Number

/-- A power of a positive finite number, given its mantissa and exponent. The
sign is that of the result. -/
def magnitudePower (negative : Bool) (mantissa : Nat) (exponent : Int) (n : Int) : Float :=
  let size : Int := mantissa.log2 + exponent
  let low := if 0 ≤ n then n * size else n * (size + 1)
  let high := if 0 ≤ n then n * (size + 1) else n * size
  if 1025 ≤ low then (Binary.infinite negative).toFloat
  else if high < -1080 then floatOfFraction negative 0 1
  else
    let (num, den) := Binary.fraction mantissa exponent
    match n with
    | .ofNat e => floatOfFraction negative (Nat.pow num e) (Nat.pow den e)
    | .negSucc e => floatOfFraction negative (Nat.pow den (e + 1)) (Nat.pow num (e + 1))

/-- The power of a double with an integral exponent. The exponent zero gives one
whatever the base is; an odd power keeps the sign of the base. -/
def power (x : Float) (n : Int) : Float :=
  if n = 0 then floatOfFraction false 1 1
  else
    match Binary.ofFloat x with
    | .nan => Binary.nan.toFloat
    | .infinite negative =>
      let negative := negative && n % 2 = 1
      if 0 < n then (Binary.infinite negative).toFloat else floatOfFraction negative 0 1
    | .finite negative mantissa exponent =>
      let negative := negative && n % 2 = 1
      if mantissa = 0 then
        (if 0 < n then floatOfFraction negative 0 1 else (Binary.infinite negative).toFloat)
      else magnitudePower negative mantissa exponent n

end PointPattern.Number
