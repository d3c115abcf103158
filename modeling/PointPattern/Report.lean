/-
# Reports

A report is the result of a run in a common envelope: the numbers of the run, facts
about how it came about, the time of its parts, the backend and the warnings. The
numbers of the statistic are the values of each repetition, their means and
variances, the p-value and the sampling box. They are published as named records,
and printed as a table.
-/

import PointPattern.Box
import PointPattern.Datum
import PointPattern.Trials

namespace PointPattern

/-- The result of a computation together with how it came about. A report never
changes. -/
structure Report (P I K : Type) where
  params : P
  info : I
  timing : Option (List (String × K)) := none
  backend : String
  warnings : List String := []

namespace Report

variable {P I K : Type}

/-- Whether a text occurs within another one. -/
def occursIn (needle : List Char) : List Char → Bool
  | [] => needle.isEmpty
  | c :: rest => needle.isPrefixOf (c :: rest) || occursIn needle rest

/-- Whether some warning contains a text. -/
def hasWarning (r : Report P I K) (text : String) : Bool :=
  r.warnings.any fun warning => occursIn text.toList warning.toList

/-- The fields of a report refuse assignment. -/
def assign (_ : Report P I K) (field : String) : Except Error (Report P I K) :=
  .error (.frozenField field)

end Report

/-- The numbers of a run of the statistic. -/
structure Params (K : Type) where
  sampleSize : Nat
  dim : Nat
  k : Nat
  repetitions : Nat
  trials : List (Trial K)
  hMean : K
  uMean : K
  wMean : K
  hVariance : Option K
  uVariance : Option K
  wVariance : Option K
  pValue : K
  box : Box K

/-- How a run of the statistic came about. -/
structure RunInfo where
  observations : Nat
  oracle : String
  entropy : Nat
  jobs : Int
  source : BoxSource

/-- A solution: the report of a run and the seed of its design. -/
structure Solution (K : Type) where
  report : Report (Params K) RunInfo K
  seed : Option Nat

namespace Params

variable {K : Type}

/-- The statistic is the mean share over the repetitions. -/
def statistic (p : Params K) : K := p.hMean

variable [Scalar K] [Roots K]

/-- The square root of a variance, if there is one. -/
def deviationOf (variance : Option K) : Except Error (Option K) :=
  match variance with
  | none => .ok none
  | some v => (Moments.rootOf v).map some

/-- Standard deviations of the share and of the two sums. -/
def deviations (p : Params K) : Except Error (Option K × Option K × Option K) := do
  return (← deviationOf p.hVariance, ← deviationOf p.uVariance, ← deviationOf p.wVariance)

/-- The names of records begin with this. -/
def recordPrefix : String := "pytendency.hopkins"

/-- The name of a record. -/
def recordName (name : String) : String := recordPrefix ++ "." ++ name

/-- The records of the standard deviations. A single repetition has no such records; a
deviation that does not exist would be a record without a number. -/
def deviationRecords (p : Params K) : Except Error (List (String × Option (Datum K))) := do
  if p.repetitions ≤ 1 then return []
  let (h, u, w) ← p.deviations
  return [(recordName "h.std", h.map .real), (recordName "u.std", u.map .real),
    (recordName "w.std", w.map .real)]

/-- The named records of a run in the order in which they are published. -/
def records (p : Params K) : Except Error (List (String × Option (Datum K))) := do
  let deviations ← p.deviationRecords
  return [(recordName "samplesize", some (.whole p.sampleSize)),
      (recordName "dim", some (.whole p.dim)),
      (recordName "nearest-neighbor", some (.whole p.k)),
      (recordName "h.mean", some (.real p.hMean)), (recordName "u.mean", some (.real p.uMean)),
      (recordName "w.mean", some (.real p.wMean))] ++
    deviations ++ [(recordName "p", some (.real p.pValue))]

end Params

/-! ## Printed forms -/

namespace Solution

/-- A row of the table: a label, a mean and a standard deviation. -/
def tableRow (label : String) (mean : Float) (deviation : Option Float) : String :=
  let deviation := match deviation with
    | some x => Number.alignRight 14 (Number.generalText 5 x)
    | none => Number.alignRight 14 "NA"
  Number.alignRight 4 label ++ " " ++ Number.alignRight 14 (Number.generalText 5 mean) ++ " " ++
    deviation

/-- The printed summary of a solution. -/
def summary (s : Solution Float) : Except Error String := do
  let p := s.report.params
  let (h, u, w) ← p.deviations
  let lines :=
    ["\nHOPKINS STATISTIC OF CLUSTERING TENDENCY\n",
      "Sample size: " ++ toString p.sampleSize ++ "   Dimensions: " ++ toString p.dim ++
        "   k: " ++ toString p.k ++ "   Repetitions: " ++ toString p.repetitions,
      "",
      Number.alignRight 4 "" ++ " " ++ Number.alignRight 14 "mean" ++ " " ++
        Number.alignRight 14 "std. dev.",
      tableRow "H" p.hMean h, tableRow "U" p.uMean u, tableRow "W" p.wMean w,
      "",
      "p-value: " ++ Number.generalText 4 p.pValue]
  let warnings :=
    if s.report.warnings.isEmpty then []
    else "" :: s.report.warnings.map ("Warning: " ++ ·)
  return "\n".intercalate (lines ++ warnings ++ [""])

/-- The short written form of a solution. -/
def written (s : Solution Float) : String :=
  let p := s.report.params
  "HopkinsSolution(statistic=" ++ Number.generalText 4 p.statistic ++ ", p_value=" ++
    Number.generalText 4 p.pValue ++ ", S=" ++ toString p.sampleSize ++ ", R=" ++
    toString p.repetitions ++ ", backend=" ++ quoted s.report.backend ++ ")"

end Solution

end PointPattern
