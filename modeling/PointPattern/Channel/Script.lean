/-
# Named collectors

A script works on a channel through named collectors. Each collector has at most one
block that was prepared for it; preparing another one ends the block that is still
open. A block ends in the same way whether its body fails or not.
-/

import PointPattern.Channel

namespace PointPattern

/-- A block of a collector, before and after it was entered. -/
inductive BlockState where
  | prepared (collector : Nat)
  | entered (block : CollectorBlock)
  | ended
  deriving DecidableEq, Repr

/-- A channel with named collectors and the blocks that were prepared for them. -/
structure Console (K : Type) where
  channel : Channel K
  collectors : Ledger String Nat := {}
  blocks : Ledger String BlockState := {}

/-- A step of a script. -/
inductive ConsoleAction where
  | create (name : String) (level : Int)
  | prepare (name : String)
  | enter (name : String)
  | leave (name : String)
  | addHandler (name : String)
  | removeHandler (name : String)
  | setLevel (level : Int)
  | isEnabled
  | emit (name : String) (value : Value)
  | log (level : Int) (text : String)
  | records (name : String)
  /-- The last number of each name. -/
  | latest (name : String)

/-- What a step answers. -/
inductive ConsoleReply (K : Type) where
  | nothing
  | flag (b : Bool)
  | records (rs : List (String × Datum K))

namespace Console

variable {K : Type}

/-- The collector of a name. -/
def collector (c : Console K) (name : String) : Except Error Nat :=
  match c.collectors.get? name with
  | some number => .ok number
  | none => .error (.raised "KeyError" name)

/-- Ends a block if it is open. -/
def endBlock (state : BlockState) (channel : Channel K) : Channel K :=
  match state with
  | .entered block => channel.closeBlock block
  | _ => channel

/-- The block that was prepared for a collector. -/
def block (c : Console K) (name : String) : Except Error BlockState :=
  match c.blocks.get? name with
  | some state => .ok state
  | none => .error (.raised "KeyError" name)

/-- Enters a prepared block; every block is entered once. -/
def enter (c : Console K) (name : String) : Except Error (Console K) := do
  match ← c.block name with
  | .prepared collector =>
    let (block, channel) := c.channel.openBlock collector
    return { c with channel, blocks := c.blocks.put name (.entered block) }
  | _ => throw (.noSuchOperation "_GeneratorContextManager" "args")

/-- Leaves a block. -/
def leave (c : Console K) (name : String) : Except Error (Console K) := do
  match ← c.block name with
  | .prepared _ => throw (.raised "RuntimeError" "generator didn't stop")
  | state =>
    return { c with channel := endBlock state c.channel, blocks := c.blocks.put name .ended }

/-- Carries out a step. -/
def step (c : Console Float) : ConsoleAction → Except Error (ConsoleReply Float × Console Float)
  | .create name level =>
    let (number, channel) := c.channel.addCollector level
    .ok (.nothing, { c with channel, collectors := c.collectors.put name number })
  | .prepare name => do
    let collector ← c.collector name
    let channel := endBlock ((c.blocks.get? name).getD .ended) c.channel
    return (.nothing, { c with channel, blocks := c.blocks.put name (.prepared collector) })
  | .enter name => do return (.flag true, ← c.enter name)
  | .leave name => do return (.flag false, ← c.leave name)
  | .addHandler name => do
    return (.nothing, { c with channel := c.channel.attach (← c.collector name) })
  | .removeHandler name => do
    return (.nothing, { c with channel := c.channel.detach (← c.collector name) })
  | .setLevel level => .ok (.nothing, { c with channel := { c.channel with level } })
  | .isEnabled => .ok (.flag c.channel.isEnabled, c)
  | .emit name value => do
    return (.nothing, { c with channel := c.channel.emit name (← Datum.ofValue value) })
  | .log level text => .ok (.nothing, { c with channel := c.channel.log level text })
  | .records name => do return (.records (c.channel.records (← c.collector name)), c)
  | .latest name => do
    let number ← c.collector name
    let latest := (c.channel.collectors[number]?).map fun collector => collector.latest.entries
    return (.records (latest.getD []), c)

end Console

end PointPattern
