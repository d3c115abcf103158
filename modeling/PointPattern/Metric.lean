/-
# Metrics

A metric measures two points with the same number of coordinates. The Minkowski
family has the sum of absolute differences, the Euclidean distance and the greatest
difference as special members, all of them with optional weights on the axes; the
other metrics are the classical ones of cluster analysis and functions that a
caller supplies. A metric is named by a caller together with its settings, and the
names are compared without regard to case.
-/

import PointPattern.Scalar
import PointPattern.Value.Layout

namespace PointPattern

/-- A metric with its settings. -/
inductive Metric where
  /-- The Minkowski metric of the given order, which may be infinite. -/
  | minkowski (order : Float) (weights : Option (List Float))
  | squaredEuclidean (weights : Option (List Float))
  /-- Squared differences are divided by the variance of their axis. -/
  | standardized (variances : List Float)
  | canberra
  | brayCurtis
  | cosine
  /-- The fraction of coordinates that differ. -/
  | hamming
  | pair (f : PairFunction)
  deriving Repr

namespace Metric

variable {K : Type} [Add K] [Sub K] [Mul K] [Div K] [Scalar K] [Roots K]

/-- Folds over the pairs of coordinates of two points. -/
@[specialize] def foldPairs (step : K → K → K → K) (acc : K) : List K → List K → K
  | a :: as, b :: bs => foldPairs step (step acc a b) as bs
  | _, _ => acc

/-- Folds over the pairs of coordinates of two points and the weight of their
axis. -/
@[specialize] def foldWeighted (step : K → K → K → K → K) (acc : K) :
    List Float → List K → List K → K
  | w :: ws, a :: as, b :: bs => foldWeighted step (step acc (Scalar.ofFloat w) a b) ws as bs
  | _, _, _ => acc

/-- The larger of the greatest gap so far and another gap. -/
@[inline] def widen (acc gap : K) : K := if Scalar.less acc gap || Scalar.isNaN gap then gap else acc

/-- The Minkowski distance without weights. -/
@[specialize] def minkowskiDistance (order : Float) (u v : List K) : K :=
  if order == 2 then
    Roots.sqrt (foldPairs (fun acc a b => acc + (a - b) * (a - b)) Scalar.zero u v)
  else if order == 1 then
    foldPairs (fun acc a b => acc + Scalar.abs (a - b)) Scalar.zero u v
  else if order.isInf && 0 < order then
    foldPairs (fun acc a b => widen acc (Scalar.abs (a - b))) Scalar.zero u v
  else
    let p : K := Scalar.ofFloat order
    Roots.realPower
      (foldPairs (fun acc a b => acc + Roots.realPower (Scalar.abs (a - b)) p) Scalar.zero u v)
      (Scalar.ofNat 1 / p)

/-- The Minkowski distance with weights. For the infinite order only the axes of
positive weight count. -/
def weightedMinkowski (order : Float) (weights : List Float) (u v : List K) : K :=
  if order == 2 then
    Roots.sqrt (foldWeighted (fun acc w a b => acc + w * ((a - b) * (a - b))) Scalar.zero weights u v)
  else if order == 1 then
    foldWeighted (fun acc w a b => acc + w * Scalar.abs (a - b)) Scalar.zero weights u v
  else if order.isInf && 0 < order then
    foldWeighted
      (fun acc w a b => if Scalar.less Scalar.zero w then widen acc (Scalar.abs (a - b)) else acc)
      Scalar.zero weights u v
  else
    let p : K := Scalar.ofFloat order
    Roots.realPower
      (foldWeighted (fun acc w a b => acc + w * Roots.realPower (Scalar.abs (a - b)) p)
        Scalar.zero weights u v)
      (Scalar.ofNat 1 / p)

/-- The cosine of the angle between two points, kept within its range. -/
def angleCosine (u v : List K) : K :=
  let one : K := Scalar.ofNat 1
  let minusOne : K := Scalar.zero - one
  let dot := foldPairs (fun acc a b => acc + a * b) Scalar.zero u v
  let norm (x : List K) := Roots.sqrt (foldPairs (fun acc a _ => acc + a * a) Scalar.zero x x)
  let cosine := dot / (norm u * norm v)
  if Scalar.less one cosine then one
  else if Scalar.less cosine minusOne then minusOne
  else cosine

/-- The distance of two points. -/
@[specialize] def distance (metric : Metric) (u v : List K) : K :=
  match metric with
  | minkowski order none => minkowskiDistance order u v
  | minkowski order (some weights) => weightedMinkowski order weights u v
  | squaredEuclidean none =>
    foldPairs (fun acc a b => acc + (a - b) * (a - b)) Scalar.zero u v
  | squaredEuclidean (some weights) =>
    foldWeighted (fun acc w a b => acc + w * ((a - b) * (a - b))) Scalar.zero weights u v
  | standardized variances =>
    Roots.sqrt
      (foldWeighted (fun acc s a b => acc + (a - b) * (a - b) / s) Scalar.zero variances u v)
  | canberra =>
    foldPairs
      (fun acc a b =>
        let sum := Scalar.abs a + Scalar.abs b
        if Scalar.less Scalar.zero sum || Scalar.isNaN sum then
          acc + Scalar.abs (a - b) / sum
        else acc)
      Scalar.zero u v
  | brayCurtis =>
    foldPairs (fun acc a b => acc + Scalar.abs (a - b)) Scalar.zero u v /
      foldPairs (fun acc a b => acc + Scalar.abs (a + b)) Scalar.zero u v
  | cosine => Scalar.ofNat 1 - angleCosine u v
  | hamming =>
    foldPairs
      (fun acc a b =>
        if Scalar.less a b || Scalar.less b a || Scalar.isNaN a || Scalar.isNaN b then
          acc + Scalar.ofNat 1
        else acc)
      Scalar.zero u v / Scalar.ofNat u.length
  | pair .greatestGap => foldPairs (fun acc a b => widen acc (Scalar.abs (a - b))) Scalar.zero u v
  | pair .signedGap => foldPairs (fun acc a b => acc + (a - b)) Scalar.zero u v

/-! ## Metrics by name -/

/-- The names of the metrics that are compared by exhaustive search. Metrics under
other names are left out. -/
inductive Named where
  | euclidean
  | squaredEuclidean
  | cityBlock
  | chebyshev
  | minkowski
  | standardized
  | canberra
  | brayCurtis
  | cosine
  | hamming
  deriving DecidableEq, Repr

/-- The spellings of a metric in lower case. -/
def Named.spellings : Named → List String
  | euclidean => ["euclidean", "euclid", "eu", "e"]
  | squaredEuclidean => ["sqeuclidean", "sqe", "sqeuclid"]
  | cityBlock => ["cityblock", "cblock", "cb", "c"]
  | chebyshev => ["chebyshev", "chebychev", "cheby", "cheb", "ch"]
  | minkowski => ["minkowski", "mi", "m", "pnorm"]
  | standardized => ["seuclidean", "se", "s"]
  | canberra => ["canberra"]
  | brayCurtis => ["braycurtis"]
  | cosine => ["cosine", "cos"]
  | hamming => ["hamming", "hamm", "ha", "h", "matching"]

/-- All named metrics. -/
def Named.all : List Named :=
  [euclidean, squaredEuclidean, cityBlock, chebyshev, minkowski, standardized, canberra,
    brayCurtis, cosine, hamming]

/-- The metric of a name. -/
def Named.ofName? (name : String) : Option Named :=
  let lower := String.ofList (name.toList.map Char.toLower)
  Named.all.find? fun metric => metric.spellings.contains lower

/-- The settings that a named metric has. Weights of the classical metrics, and
variances that are found from the points instead of being given, are left out. -/
def Named.settings : Named → List String
  | euclidean | squaredEuclidean | cityBlock | chebyshev => ["w"]
  | minkowski => ["p", "w"]
  | standardized => ["V"]
  | _ => []

/-- Numbers along the axes, as many as there are coordinates. -/
def perAxis (dim : Nat) (parameter : String) (v : Value) : Except Error (List Float) := do
  let block ← v.toBlock
  if block.values.length = dim then return block.values
  else throw (.metric (.wrongLength parameter))

/-- The weights among the settings; they may not be negative. -/
def weightsOf (dim : Nat) (settings : List (String × Value)) :
    Except Error (Option (List Float)) :=
  match Value.field? "w" settings with
  | none => return none
  | some .null => return none
  | some v => do
    let weights ← perAxis dim "w" v
    if weights.any (· < 0) then throw (.metric .negativeWeights)
    return some weights

/-- The order among the settings of a Minkowski metric, two if it is not given. -/
def orderOf (settings : List (String × Value)) : Except Error Float :=
  match Value.field? "p" settings with
  | none => return 2
  | some v => do
    let order ← v.toReal
    if order ≤ 0 then throw (.metric .orderNotPositive)
    return order

/-- The metric that a name with its settings denotes for points with the given
number of coordinates. -/
def Named.resolve (named : Named) (dim : Nat) (settings : List (String × Value)) :
    Except Error Metric := do
  match settings.find? fun (parameter, _) => !named.settings.contains parameter with
  | some (parameter, _) => throw (.metric (.unknownSetting parameter))
  | none => pure ()
  match named with
  | euclidean => return .minkowski 2 (← weightsOf dim settings)
  | squaredEuclidean => return .squaredEuclidean (← weightsOf dim settings)
  | cityBlock => return .minkowski 1 (← weightsOf dim settings)
  | chebyshev => return .minkowski (1 / 0) (← weightsOf dim settings)
  | minkowski => do
    let order ← orderOf settings
    return .minkowski order (← weightsOf dim settings)
  | standardized =>
    match Value.field? "V" settings with
    | some v => return .standardized (← perAxis dim "V" v)
    | none => throw (.metric (.wrongLength "V"))
  | canberra => return .canberra
  | brayCurtis => return .brayCurtis
  | cosine => return .cosine
  | hamming => return .hamming

/-- The metric that a caller asks for by a name or a function. -/
def resolve (given : Value) (dim : Nat) (settings : List (String × Value)) :
    Except Error Metric :=
  match given with
  | .text name => match Named.ofName? name with
    | some named => named.resolve dim settings
    | none => throw (.metric (.unknownName name))
  | .measure f => return .pair f
  | _ => throw (.metric .notAMetric)

end Metric

end PointPattern
