/-
# Requests

A request describes a study in full: the settings or the design, the oracle, and the
state of the statistics channel during the study. A design and an oracle are built
before the study begins; if that fails, there is no study.
-/

import PointPattern.Oracle.Recipe
import PointPattern.Study

namespace PointPattern

/-- The channel during a study. -/
inductive ChannelMode where
  /-- Only warnings and errors pass. -/
  | closed
  /-- Records pass, and nobody collects them. -/
  | opened
  /-- A collector is attached for the time of the study. -/
  | collecting
  deriving DecidableEq, Repr

/-- A channel in the given mode. -/
def ChannelMode.channel {K : Type} : ChannelMode → Channel K
  | closed => { level := defaultLevel }
  | opened => { level := statisticsLevel }
  | collecting =>
    let (collector, channel) :=
      ({ level := defaultLevel } : Channel K).addCollector statisticsLevel
    (channel.openBlock collector).2

/-- A study that has still to be prepared. -/
structure Request where
  /-- The settings of a design that is built beforehand. -/
  design : Option Settings := none
  settings : Settings
  recipe : Option Recipe := none
  metric : Value := .text "euclidean"
  metricSettings : Value := .null
  backend : Value := .text "cpu"
  publish : Value := .bool true
  mode : ChannelMode := .closed

/-- What a study leaves behind. -/
structure Aftermath (ν κ K : Type) where
  outcome : Outcome ν κ K
  warned : List String
  records : List (String × Datum K)
  transcript : Transcript K
  session : Option (Session ν κ)

namespace Request

/-- Builds the design and the oracle. The oracle searches the data of the study
unless it has its own. -/
def prepare (r : Request) (library : Option Accelerators) :
    Except Error (Study (Transcript Float) Float) := do
  let design ← match r.design with
    | none => pure none
    | some settings => (Design.ofSettings settings).map some
  let data := (design.map fun d => Value.ofGrid d.points.toGrid).getD r.settings.data
  let oracle ← match r.recipe with
    | none => pure none
    | some recipe => (recipe.build library data).map some
  return {
    design
    settings := r.settings
    choice := {
      oracle
      metric := r.metric
      metricSettings := r.metricSettings
      backend := r.backend }
    publish := r.publish }

variable {ν κ : Type} [DecidableEq ν] [DecidableEq κ]

/-- Prepares and conducts a study, whose solution gets an identity and a parent if
there is a hierarchy. -/
def conduct (host : Host Float) (library : Option Accelerators) (r : Request) (identity : ν)
    (parent : Node ν) (session : Option (Session ν κ)) :
    Except Error (Aftermath ν κ Float) := do
  let study ← r.prepare library
  let scene : Scene (Transcript Float) ν κ Float :=
    { oracle := {}, channel := r.mode.channel, session }
  let (outcome, scene) :=
    study.conduct host library acceleratorOracle identity parent scene
  return {
    outcome
    warned := scene.warned.reverse
    records := scene.channel.records 0
    transcript := scene.oracle
    session := scene.session }

end Request

end PointPattern
