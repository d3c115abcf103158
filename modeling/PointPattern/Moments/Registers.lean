/-
# Named accumulators

Accumulators under names, and the operations on them one by one. An operation that
fails keeps what it has done until then.
-/

import PointPattern.Ledger
import PointPattern.Moments

namespace PointPattern

/-- An operation on named accumulators. -/
inductive RegisterAction where
  /-- An accumulator without numbers. -/
  | create (name : String)
  | push (name : String) (value : Value)
  /-- Several numbers, up to the first value that is none. -/
  | pushAll (name : String) (values : List Value)
  /-- Adds the numbers of the second accumulator to the first. -/
  | merge (name other : String)
  /-- The second accumulator becomes like the first. -/
  | copy (name other : String)

namespace RegisterAction

/-- The accumulator that an operation is about. -/
def name : RegisterAction → String
  | create name | push name _ | pushAll name _ | merge name _ | copy name _ => name

end RegisterAction

/-- Accumulators under names, in the order in which they came. -/
abbrev Registers := Ledger String (Moments Float)

namespace Registers

/-- The accumulator of a name. -/
def find (r : Registers) (name : String) : Except Error (Moments Float) :=
  match r.get? name with
  | some m => .ok m
  | none => .error (.raised "KeyError" name)

/-- Carries out an operation. -/
def act (r : Registers) : RegisterAction → Option Error × Registers
  | .create name => (none, r.put name .empty)
  | .push name value =>
    match (do (← r.find name).pushValue value : Except Error (Moments Float)) with
    | .ok m => (none, r.put name m)
    | .error e => (some e, r)
  | .pushAll name values =>
    match r.find name with
    | .ok m =>
      let (failure, m) := m.pushValues values
      (failure, r.put name m)
    | .error e => (some e, r)
  | .merge name other =>
    match (do return (← r.find name).merge (← r.find other) : Except Error (Moments Float)) with
    | .ok m => (none, r.put name m)
    | .error e => (some e, r)
  | .copy name other =>
    match r.find name with
    | .ok m => (none, r.put other m)
    | .error e => (some e, r)

end Registers

end PointPattern
