/-
# Backends

A backend carries out a design. Three kinds of oracle can answer its queries: one
that the caller owns, the default oracle of a metric, or one on an accelerator. A
run asks for neighbors only after everything else has been settled, takes all its
random numbers from one entropy, and gives either a whole report or the failure of
the first repetition that failed. The timer waits for the device of an oracle at
both ends of each part of the run.
-/

import PointPattern.Design
import PointPattern.Oracle.Device
import PointPattern.Report
import PointPattern.Significance
import PointPattern.Timer

namespace PointPattern

open PointPattern.Random

/-- What a run takes from the machine on which it runs. -/
structure Host (K : Type) where
  /-- The number of processors, if the machine tells. -/
  processors : Option Nat := none
  /-- The entropy for designs without a seed. -/
  freshEntropy : Nat := 0
  /-- The readings of the clock, counted from zero. -/
  clock : Nat → K

/-! ## Timed steps -/

/-- The state of the oracle, the timer, and how often the clock was read. -/
structure Running (σ K : Type) where
  oracle : σ
  timer : Timer K := {}
  readings : Nat := 0

/-- A step of a run under a timer. -/
abbrev Timed (σ K α : Type) : Type := ExceptT Error (StateM (Running σ K)) α

namespace Timed

variable {σ K α : Type}

/-- A step of the oracle. -/
def ofStep (step : Step σ α) : Timed σ K α := fun r =>
  let (result, s) := step r.oracle
  (result, { r with oracle := s })

/-- A result that needs no oracle. -/
def ofExcept (result : Except Error α) : Timed σ K α := fun r => (result, r)

/-- Waits for the device and reads the clock. -/
def read (host : Host K) (await : σ → σ) (r : Running σ K) : K × Running σ K :=
  (host.clock r.readings, { r with oracle := await r.oracle, readings := r.readings + 1 })

variable [Add K] [Sub K] [Scalar K]

/-- Starts the timer. -/
def start (host : Host K) (await : σ → σ) : Timed σ K Unit := fun r =>
  let (reading, r) := read host await r
  (.ok (), { r with timer := r.timer.start reading })

/-- Stops the timer. -/
def stop (host : Host K) (await : σ → σ) : Timed σ K Unit := fun r =>
  let (reading, r) := read host await r
  match r.timer.stop reading with
  | .error e => (.error e, r)
  | .ok timer => (.ok (), { r with timer })

/-- Carries out a part of a run and adds its time to a section, also if it fails. -/
def within (host : Host K) (await : σ → σ) (name : String) (body : Timed σ K α) :
    Timed σ K α := fun r =>
  let (began, r) := read host await r
  let (result, r) := body r
  let (ended, r) := read host await r
  (result, { r with timer := r.timer.close name began ended })

end Timed

/-! ## Backends -/

/-- Where the answers to neighbor queries come from. -/
inductive Backend (σ K : Type) where
  /-- From an oracle of the caller. -/
  | injected (oracle : Oracle σ K)
  /-- From the default oracle of a metric with its settings. -/
  | processor (metric : Value) (settings : List (String × Value))
  /-- From an oracle on a device. -/
  | accelerator (device : Device) (oracle : PointSet K → Oracle σ K)

namespace Backend

variable {σ K : Type}

/-- The name of a backend in reports. -/
def name : Backend σ K → String
  | injected _ | processor _ _ => "cpu_hopkins"
  | accelerator device _ => "gpu_" ++ device.name ++ "_hopkins"

/-- The oracle that is there before a run begins. -/
def prepared? (b : Backend σ K) (points : PointSet K) : Option (Oracle σ K) :=
  match b with
  | injected oracle => some oracle
  | processor _ _ => none
  | accelerator _ oracle => some (oracle points)

/-- How a run waits for the device of a prepared oracle. -/
def await (b : Backend σ K) (points : PointSet K) : σ → σ :=
  ((b.prepared? points).bind (·.synchronize)).getD id

variable [Add K] [Sub K] [Mul K] [Div K] [Scalar K] [Roots K]

/-- An oracle that is built for a run insists on finite points. -/
def checkCorpus (points : PointSet K) : Except Error Unit :=
  @checkFinite K Scalar.hasInfinities points.toGrid "data"

/-- The oracle of a run. -/
def oracle (b : Backend σ K) (points : PointSet K) : Except Error (Oracle σ K) :=
  match b with
  | injected oracle => .ok oracle
  | processor metric settings => do
    checkCorpus points
    Oracle.ofMetric points metric settings
  | accelerator _ oracle => do
    checkCorpus points
    return oracle points

/-- An oracle on a device is built before anything else is checked. -/
def checkBuilt (b : Backend σ K) (points : PointSet K) : Except Error Unit :=
  match b with
  | accelerator _ _ => checkCorpus points
  | injected _ | processor _ _ => .ok ()

/-- The warning about an oracle that may not be asked by several workers. -/
def sequentialWarning (o : Oracle σ K) : String :=
  "oracle " ++ quoted o.name ++ " is not thread safe; running repetitions sequentially"

/-- Whether a request for workers is turned down: only an oracle that advertises it
is asked by several workers. -/
def isSequential (o : Oracle σ K) (jobs : Int) : Bool := jobs ≠ 1 && !o.supports .threadSafe

/-- The stream of a repetition. -/
def streamOf (entropy j : Nat) : Stream := .ofSeed ((⟨[entropy], none⟩ : Seed).spawn j)

/-- The numbers of a run. -/
def params (d : Design K) (box : Box K) (summary : Summary K) (pValue : K) : Params K where
  sampleSize := d.sampleSize
  dim := d.points.dim
  k := d.k
  repetitions := d.repetitions
  trials := summary.trials
  hMean := summary.tally.h.mean
  uMean := summary.tally.u.mean
  wMean := summary.tally.w.mean
  hVariance := summary.tally.h.variance
  uVariance := summary.tally.u.variance
  wVariance := summary.tally.w.variance
  pValue
  box

/-- All repetitions of a design. -/
def trials (o : Oracle σ K) (d : Design K) (box : Box K) (entropy : Nat) (workers : Nat) :
    Step σ (Summary K) :=
  runTrials
    (repetition o (streamSource K) (streamOf entropy) d.points box d.sampleSize d.k)
    d.repetitions workers

variable [BetaTails K]

/-- The parts of a run: the oracle, the box, the repetitions and the p-value. -/
def conduct (host : Host K) (b : Backend σ K) (d : Design K) :
    Timed σ K (Report (Params K) RunInfo K) := do
  let await := b.await d.points
  Timed.start host await
  let o ← Timed.within host await "oracle" (Timed.ofExcept (b.oracle d.points))
  let sequential := isSequential o d.jobs
  let jobs := resolveJobs (if sequential then 1 else d.jobs) d.repetitions host.processors
  let entropy := d.seed.getD host.freshEntropy
  let box ← Timed.within host await "extent" (Timed.ofExcept d.box)
  let summary ← Timed.within host await "trials"
    (Timed.ofStep (trials o d box entropy jobs.toNat))
  let pValue ← Timed.within host await "significance"
    (Timed.ofExcept (Significance.pValue summary.tally.h.mean d.sampleSize))
  Timed.stop host await
  let timer := (← get).timer
  let timing ← Timed.ofExcept timer.result
  return {
    params := params d box summary pValue
    info := {
      observations := d.points.size
      oracle := o.name
      entropy
      jobs
      source := box.source }
    timing := some timing
    backend := b.name
    warnings := if sequential then [sequentialWarning o] else [] }

/-- Carries out a design. The real sample asks for one neighbor more than the rank,
so that there must be more points than the rank says; this is checked before
anything else but an oracle on a device. -/
def solve (host : Host K) (b : Backend σ K) (d : Design K) :
    Step σ (Report (Params K) RunInfo K) := fun s =>
  match b.checkBuilt d.points with
  | .error e => (.error e, s)
  | .ok () =>
    if d.points.size < d.k + 1 then
      (.error (.oracle (.tooFewPoints d.k d.points.size) (some (d.k + 1 : Nat)) none), s)
    else
      let (result, r) := conduct host b d { oracle := s }
      (result, r.oracle)

end Backend

/-! ## Choosing a backend -/

/-- What decides on the backend, beside the design. -/
structure Choice (σ K : Type) where
  oracle : Option (Oracle σ K) := none
  metric : Value := .text "euclidean"
  metricSettings : Value := .null
  backend : Value := .text "cpu"

namespace Choice

variable {σ K : Type}

/-- The settings of the metric. Nothing, and everything empty, stands for none. -/
def settings (c : Choice σ K) : Except Error (List (String × Value)) :=
  match c.metricSettings with
  | .record fields => .ok fields
  | v => if v.isTrue then .error (.metric (.settingsNotNamed v)) else .ok []

/-- Whether the metric is the one that accelerators compute, without settings. -/
def isPlainEuclidean (c : Choice σ K) (settings : List (String × Value)) : Bool :=
  c.metric.text? = some "euclidean" && settings.isEmpty

/-- The backend that a choice stands for. An oracle of the caller always runs on the
processor. -/
def select (c : Choice σ K) (library : Option Accelerators)
    (onDevice : Device → PointSet K → Oracle σ K) : Except Error (Backend σ K) := do
  let kind ← match c.backend.text? with
    | some kind =>
      if kind = "cpu" || kind = "gpu" || kind = "auto" then pure kind
      else throw (.invalid (.unknownBackend c.backend))
    | none => throw (.invalid (.unknownBackend c.backend))
  let settings ← c.settings
  match c.oracle with
  | some oracle => return .injected oracle
  | none =>
    let found := (Device.detect library).isSome
    if kind = "cpu" || (kind = "auto" && !(found && c.isPlainEuclidean settings)) then
      return .processor c.metric settings
    else if !c.isPlainEuclidean settings then throw (.invalid (.metricNotOnDevice c.metric))
    else
      let device ← Device.select library "auto"
      return .accelerator device (onDevice device)

end Choice

end PointPattern
