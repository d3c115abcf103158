/-
# Descriptions of oracles

A caller may describe an oracle instead of building it: the kind, the settings, and
the data, unless they are those of the study. Building checks the data first and
then the settings, and the oracle keeps its transcript in the state.
-/

import PointPattern.Oracle.Double
import PointPattern.Validation

namespace PointPattern

/-- Settings for an oracle on a device. -/
structure DeviceSettings where
  device : String := "auto"
  order : Value := .real 2
  chunkSize : Value := .int 4096

/-- A description of an oracle. Data that are not given are those of the study. -/
inductive Recipe where
  /-- An object that answers nothing. -/
  | silent
  | tree (data : Option Value) (order leafSize : Value)
  | exhaustive (data : Option Value) (metric : Value) (settings : List (String × Value))
  /-- The default oracle of a metric. -/
  | ofMetric (data : Option Value) (metric : Value) (settings : List (String × Value))
  | onDevice (data : Option Value) (settings : DeviceSettings)
  | scripted (answers : List Oracle.Answer) (guise : Oracle.Guise)
  | recorded (inner : Recipe) (guise : Oracle.Guise)
  deriving Inhabited

namespace Recipe

/-- A tree holds finite points only. -/
def checkIndexable (points : PointSet Float) : Except Error Unit :=
  if points.points.all fun row => row.all Float.isFinite then .ok ()
  else .error (.metric .corpusNotFinite)

/-- The oracle of a tree whose leaves hold at least one point. -/
def buildTree (data order leafSize : Value) : Except Error (Oracle (Transcript Float) Float) := do
  let points ← checkPoints data "data"
  let order ← order.toReal
  let leafSize ← leafSize.toInteger
  checkIndexable points
  if leafSize < 1 then throw (.metric .leafSize)
  return Oracle.tree points order

/-- The default oracle of a metric. -/
def buildOfMetric (data metric : Value) (settings : List (String × Value)) :
    Except Error (Oracle (Transcript Float) Float) := do
  let points ← checkPoints data "data"
  if (← Oracle.treeOrder? metric settings).isSome then checkIndexable points
  Oracle.ofMetric points metric settings

/-- The oracle on a device. Without the tensor library there is none. -/
def buildOnDevice (library : Option Accelerators) (data : Value) (settings : DeviceSettings) :
    Except Error (Oracle (Transcript Float) Float) := do
  if library.isNone then throw (.device .noTensors)
  let points ← checkPoints data "data"
  let o ← Oracle.onDevice? library points settings.device settings.order settings.chunkSize
  return o.oracle Transcript.log

/-- Builds the oracle of a description. -/
def build (library : Option Accelerators) (data : Value) :
    Recipe → Except Error (Oracle (Transcript Float) Float)
  | silent => .ok (.silent "object")
  | tree own order leafSize => buildTree (own.getD data) order leafSize
  | exhaustive own metric settings => do
    return .exhaustive (← checkPoints (own.getD data) "data") metric settings
  | ofMetric own metric settings => buildOfMetric (own.getD data) metric settings
  | onDevice own settings => buildOnDevice library (own.getD data) settings
  | scripted answers guise => .ok (Oracle.scripted answers guise)
  | recorded inner guise => do return Oracle.recorded (← inner.build library data) guise

/-- Whether an oracle of this description keeps a record of the queries. -/
def isRecorded : Recipe → Bool
  | scripted _ _ | recorded _ _ => true
  | _ => false

end Recipe

/-- The oracle with which an accelerator answers the queries of a run. -/
def acceleratorOracle (device : Device) (points : PointSet Float) :
    Oracle (Transcript Float) Float :=
  let o : Oracle.OnDevice Float :=
    ⟨device, points, 4096, Oracle.deviceMeasure device 2, 0⟩
  o.oracle Transcript.log

end PointPattern
