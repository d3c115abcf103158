/-
# Running moments

Count, mean and sum of squared deviations of a stream of numbers, updated one
number at a time. Two accumulators over separate parts of a stream can be combined
without going back to the numbers. The variance needs two numbers; with fewer it
does not exist, and it is never reported as zero.
-/

import PointPattern.Error
import PointPattern.Scalar
import PointPattern.Value.Reading

namespace PointPattern

/-- Count, mean and sum of squared deviations from the mean. -/
structure Moments (K : Type) where
  count : Nat
  mean : K
  deviations : K
  deriving Repr

namespace Moments

variable {K : Type} [Scalar K]

/-- The moments of no numbers. -/
def empty : Moments K := ⟨0, Scalar.zero, Scalar.zero⟩

/-- The mean, if there are numbers. -/
def mean? (m : Moments K) : Option K := if m.count = 0 then none else some m.mean

variable [Add K] [Sub K] [Mul K] [Div K]

/-- One more number. -/
def push (m : Moments K) (x : K) : Moments K :=
  let count := m.count + 1
  let delta := x - m.mean
  let mean := m.mean + delta / Scalar.ofNat count
  ⟨count, mean, m.deviations + delta * (x - mean)⟩

/-- The moments of the numbers of both accumulators. -/
def merge (m other : Moments K) : Moments K :=
  if other.count = 0 then m
  else if m.count = 0 then other
  else
    let count := m.count + other.count
    let n : K := Scalar.ofNat count
    let delta := other.mean - m.mean
    { count
      mean := m.mean + delta * Scalar.ofNat other.count / n
      deviations := m.deviations +
        (other.deviations +
          delta * delta * Scalar.ofNat m.count * Scalar.ofNat other.count / n) }

/-- The moments of a list of numbers. -/
def ofList (xs : List K) : Moments K := xs.foldl push empty

/-- The sample variance, if there are two numbers at least. -/
def variance (m : Moments K) : Option K :=
  if m.count < 2 then none else some (m.deviations / Scalar.ofNat (m.count - 1))

/-- The square root of a variance. A negative number has none, nor has negative
infinity. -/
def rootOf [Roots K] (x : K) : Except Error K :=
  if Scalar.less x Scalar.zero then .error (.number .negativeRoot) else .ok (Roots.sqrt x)

/-- The sample standard deviation, if there are two numbers at least. -/
def standardDeviation [Roots K] (m : Moments K) : Except Error (Option K) :=
  match m.variance with
  | none => .ok none
  | some v => (rootOf v).map some

end Moments

/-- One more number, given by a value. -/
def Moments.pushValue (m : Moments Float) (v : Value) : Except Error (Moments Float) :=
  v.toReal.map m.push

/-- Numbers given by values, up to the first value that is none. -/
def Moments.pushValues (m : Moments Float) : List Value → Option Error × Moments Float
  | [] => (none, m)
  | v :: rest => match m.pushValue v with
    | .ok m => m.pushValues rest
    | .error e => (some e, m)

/-- The written form of moments. -/
def Moments.written (m : Moments Float) : String :=
  "RunningMoments(count=" ++ toString m.count ++ ", mean=" ++
    Number.generalText 6 (m.mean?.getD Number.Binary.nan.toFloat) ++ ", sample_variance=" ++
    ((m.variance.map Number.shortestText).getD "None") ++ ")"

end PointPattern
