/-
# The statistics channel

Named numbers are published on a channel at a level of their own. A message passes
if its level is at least that of the channel; a channel without a level of its own
takes over the one that it inherits. Collectors that are attached to the channel
keep the records that pass. A collector can be attached for the time of a block:
the block makes sure that records pass, and at its end, however it comes about, the
collector is detached and the level is what it was at the beginning.
-/

import PointPattern.Datum
import PointPattern.Ledger

namespace PointPattern

/-! ## Levels -/

/-- The level of records, between those of debugging and of information. -/
def statisticsLevel : Int := 15

/-- The level of a channel that neither has nor inherits one: only warnings and
errors pass. -/
def defaultLevel : Int := 30

/-- The name of a level. -/
def levelName (level : Int) : String :=
  match [(50, "CRITICAL"), (40, "ERROR"), (30, "WARNING"), (20, "INFO"),
      (statisticsLevel, "STATISTICS"), (10, "DEBUG"), (0, "NOTSET")].lookup level with
  | some name => name
  | none => "Level " ++ toString level

/-- The name of the channel. -/
def channelName : String := "pytendency.statistics"

/-! ## The channel -/

/-- A message that passed. -/
structure Message where
  level : Int
  text : String
  deriving DecidableEq, Repr

/-- A collector keeps the records of at least its level, in order. -/
structure Collector (K : Type) where
  level : Int := statisticsLevel
  records : List (String × Datum K) := []
  deriving Repr

/-- The last number of each name, in the order in which the names first came. -/
def Collector.latest {K : Type} (c : Collector K) : Ledger String (Datum K) :=
  .ofList c.records

/-- A channel: its level, where zero stands for none, the level that it inherits,
the collectors, which of them are attached, and the messages that passed, the
newest first. -/
structure Channel (K : Type) where
  level : Int
  inherited : Int := 0
  collectors : List (Collector K) := []
  attached : List Nat := []
  passed : List Message := []

/-- A block during which a collector is attached, with the level to go back to. -/
structure CollectorBlock where
  collector : Nat
  previous : Int
  deriving DecidableEq, Repr

namespace Channel

variable {K : Type}

/-- The level that counts. -/
def effectiveLevel (c : Channel K) : Int :=
  if c.level ≠ 0 then c.level else if c.inherited ≠ 0 then c.inherited else defaultLevel

/-- Whether messages of a level pass. Those that are not above zero never do. -/
def isEnabledFor (c : Channel K) (level : Int) : Bool :=
  0 < level && c.effectiveLevel ≤ level

/-- Whether records pass. -/
def isEnabled (c : Channel K) : Bool := c.isEnabledFor statisticsLevel

/-- A new collector; it is not attached. -/
def addCollector (c : Channel K) (level : Int) : Nat × Channel K :=
  (c.collectors.length, { c with collectors := c.collectors ++ [{ level }] })

/-- Attaches a collector, unless it is attached already. -/
def attach (c : Channel K) (collector : Nat) : Channel K :=
  if collector ∈ c.attached then c else { c with attached := c.attached ++ [collector] }

/-- Detaches a collector. -/
def detach (c : Channel K) (collector : Nat) : Channel K :=
  { c with attached := c.attached.filter (· ≠ collector) }

/-- A collector takes a record of at least its level. -/
def takeRecord (record : String × Datum K) (number : Nat) (collectors : List (Collector K)) :
    List (Collector K) :=
  collectors.modify number fun collector =>
    if collector.level ≤ statisticsLevel then
      { collector with records := collector.records ++ [record] }
    else collector

/-- Publishes a record: if records pass, each attached collector takes it. -/
def emit [Scalar K] (c : Channel K) (name : String) (datum : Datum K) : Channel K :=
  if c.isEnabled then
    { c with
      collectors := c.attached.foldl
        (fun collectors number => takeRecord (name, datum) number collectors) c.collectors
      passed := ⟨statisticsLevel, name ++ ": " ++ datum.written⟩ :: c.passed }
  else c

/-- Publishes records in order. A record without a number cannot be published; those before
it have been. -/
def emitAll [Scalar K] (c : Channel K) :
    List (String × Option (Datum K)) → Option Error × Channel K
  | [] => (none, c)
  | (_, none) :: _ => (some (.number (.notReal "NoneType")), c)
  | (name, some datum) :: rest => (c.emit name datum).emitAll rest

/-- Publishes plain text, which is no record. -/
def log (c : Channel K) (level : Int) (text : String) : Channel K :=
  if c.isEnabledFor level then { c with passed := ⟨level, text⟩ :: c.passed } else c

/-- Begins a block: the collector is attached, and records pass from now on. -/
def openBlock (c : Channel K) (collector : Nat) : CollectorBlock × Channel K :=
  let entered := c.attach collector
  (⟨collector, c.level⟩,
    if entered.isEnabled then entered else { entered with level := statisticsLevel })

/-- Ends a block. -/
def closeBlock (c : Channel K) (b : CollectorBlock) : Channel K :=
  { c.detach b.collector with level := b.previous }

/-- The records that a collector has kept. -/
def records (c : Channel K) (collector : Nat) : List (String × Datum K) :=
  ((c.collectors[collector]?).map (·.records)).getD []

end Channel

end PointPattern
