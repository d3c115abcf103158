/-
# Studies

A study is one call for the statistic: its settings, or a design that was built
before, the choice of a backend, and whether the numbers are published. Everything
that can be wrong with a call is found first; then the design is carried out, the
records are published on the channel, and last the solution is attached to a
hierarchy, if there is one, and its listeners are notified. A study that fails before
has published nothing. Publishing while the channel is closed is worth a warning.
-/

import PointPattern.Backend
import PointPattern.Channel
import PointPattern.Hierarchy.Session

namespace PointPattern

/-- One call for the statistic. -/
structure Study (σ K : Type) where
  /-- A design that was built before. The settings must then be left alone. -/
  design : Option (Design Float) := none
  settings : Settings
  choice : Choice σ K := {}
  /-- Whether the numbers are published. -/
  publish : Value := .bool true

/-- What a study works on: the state of its oracle, the channel, the session of the
hierarchy, and the warnings that were issued, the newest first. -/
structure Scene (σ ν κ K : Type) where
  oracle : σ
  channel : Channel K
  session : Option (Session ν κ) := none
  warned : List String := []

/-- How a study ends: it fails, or its solution is there. A solution that was
attached to a hierarchy comes with what attaching brought about. -/
inductive Outcome (ν κ K : Type) where
  | failed (e : Error)
  | solved (s : Solution K)
  | attached (s : Solution K) (signal : Signal ν κ)

/-- The warning about a closed channel. -/
def channelClosedWarning : String :=
  "The Hopkins statistic reports through the statistics channel, which is disabled; enable " ++
    "level STATISTICS on the 'pytendency.statistics' logger or read the returned solution"

namespace Settings

/-- The settings that differ from the defaults, the data apart. -/
def given (s : Settings) : List String :=
  [("sample_size", !s.sampleSize.isNull), ("repetitions", !s.repetitions.isOne),
    ("k", !s.k.isOne), ("seed", !s.seed.isNull), ("minima", !s.minima.isNull),
    ("maxima", !s.maxima.isNull), ("n_jobs", !s.jobs.isOne)].filterMap
    fun (name, isGiven) => if isGiven then some name else none

end Settings

namespace Study

variable {σ ν κ K : Type}

/-- The design of a study. -/
def resolveDesign (t : Study σ K) : Except Error (Design Float) :=
  match t.design with
  | none => Design.ofSettings t.settings
  | some design =>
    match t.settings.given with
    | [] => .ok design
    | names => .error (.invalid (.fixedByDesign names))

/-- The parent of a solution must be in the hierarchy. -/
def checkParent [DecidableEq ν] (session : Option (Session ν κ)) (parent : Node ν) :
    Except Error Unit :=
  match session with
  | none => .ok ()
  | some session =>
    if session.hierarchy.contains parent then .ok ()
    else .error (.invalid .parentNotInHierarchy)

/-- Whether a study warns that the channel is closed. -/
def warns (t : Study σ K) (channel : Channel K) : Bool := t.publish.isTrue && !channel.isEnabled

variable [Add K] [Sub K] [Mul K] [Div K] [Scalar K] [Roots K] [BetaTails K]

/-- The records that a study publishes. -/
def records (t : Study σ K) (s : Solution K) :
    Except Error (List (String × Option (Datum K))) :=
  if t.publish.isTrue then s.report.params.records else .ok []

/-- Carries out a design and puts the warning into the report if there is one. -/
def solve (host : Host K) (warned : Bool) (b : Backend σ K) (d : Design K) :
    Step σ (Solution K) := do
  let report ← b.solve host d
  let warnings := if warned then report.warnings ++ [channelClosedWarning] else report.warnings
  return ⟨{ report with warnings }, d.seed⟩

/-- Everything that comes before publication. Its only traces are the state of the
oracle and the warning. -/
def compute [DecidableEq ν] (host : Host K) (library : Option Accelerators)
    (onDevice : Device → PointSet K → Oracle σ K) (t : Study σ K) (parent : Node ν)
    (scene : Scene σ ν κ K) :
    Except Error (Solution K × List (String × Option (Datum K))) × Scene σ ν κ K :=
  let prepared : Except Error (Design K × Backend σ K) := do
    let design ← t.resolveDesign
    checkParent scene.session parent
    let backend ← t.choice.select library onDevice
    return (design.map Scalar.ofFloat, backend)
  match prepared with
  | .error e => (.error e, scene)
  | .ok (design, backend) =>
    let warned := t.warns scene.channel
    let scene :=
      if warned then { scene with warned := channelClosedWarning :: scene.warned } else scene
    match solve host warned backend design scene.oracle with
    | (.error e, oracle) => (.error e, { scene with oracle })
    | (.ok solution, oracle) =>
      ((t.records solution).map fun records => (solution, records), { scene with oracle })

variable [DecidableEq ν] [DecidableEq κ]

/-- Publishes records and attaches the solution under its identity. -/
def conclude (identity : ν) (parent : Node ν) (solution : Solution K)
    (records : List (String × Option (Datum K))) (scene : Scene σ ν κ K) :
    Outcome ν κ K × Scene σ ν κ K :=
  match scene.channel.emitAll records with
  | (some e, channel) => (.failed e, { scene with channel })
  | (none, channel) =>
    let scene := { scene with channel }
    match scene.session with
    | none => (.solved solution, scene)
    | some session =>
      let (session, signal) := session.attach (.object identity) parent
      (.attached solution signal, { scene with session := some session })

/-- Conducts a study. -/
def conduct (host : Host K) (library : Option Accelerators)
    (onDevice : Device → PointSet K → Oracle σ K) (t : Study σ K) (identity : ν)
    (parent : Node ν) (scene : Scene σ ν κ K) : Outcome ν κ K × Scene σ ν κ K :=
  match t.compute host library onDevice parent scene with
  | (.error e, scene) => (.failed e, scene)
  | (.ok (solution, records), scene) => conclude identity parent solution records scene

end Study

end PointPattern
