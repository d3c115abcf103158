/-
# Oracles that stand in for others

A scripted oracle gives prepared answers one after the other and starts again at
the end; an answer may be any value or a failure. A recorded oracle passes each
query on and keeps a record of it. Both share one transcript, which also holds the
log of a device.
-/

import PointPattern.Oracle.Device

namespace PointPattern

/-- A query as it was put. -/
inductive Query (K : Type) where
  | single (point : Grid K) (rank : Int)
  | block (points : Grid K) (rank : Int)

/-- What oracles were asked and what devices did, newest first. -/
structure Transcript (K : Type) where
  asked : Nat := 0
  calls : List (Query K) := []
  events : List DeviceEvent := []

namespace Transcript

variable {K : Type}

/-- Notes a query. -/
def record (q : Query K) (t : Transcript K) : Transcript K :=
  { t with calls := q :: t.calls }

/-- Notes what happened on a device. -/
def log (e : DeviceEvent) (t : Transcript K) : Transcript K :=
  { t with events := e :: t.events }

end Transcript

namespace Oracle

/-- A prepared answer of a scripted oracle. -/
inductive Answer where
  | value (v : Value)
  | failure (e : Error)

/-- The next prepared answer. -/
def nextAnswer (answers : List Answer) : Step (Transcript Float) Value := fun t =>
  let t' := { t with asked := t.asked + 1 }
  match answers[t.asked % answers.length]? with
  | some (.value v) => (.ok v, t')
  | some (.failure e) => (.error e, t')
  | none => (.ok .null, t')

/-- What a stand-in is called and what it advertises. Without capabilities it
answers single queries only. -/
structure Guise where
  ownName : Option String
  capabilities : Option (List (String × Value))

/-- The class of a stand-in. -/
def Guise.label (g : Guise) : String :=
  if g.capabilities.isSome then "Capable" else "Plain"

/-- A stand-in that answers by the given functions and keeps a record. -/
def Guise.oracle (g : Guise) (single : Grid Float → Int → Step (Transcript Float) Float)
    (block : Grid Float → Int → Step (Transcript Float) (Grid Float)) :
    Oracle (Transcript Float) Float where
  label := g.label
  ownName := g.ownName
  advertises := g.capabilities.map fun table name =>
    ((Value.field? name table).map Value.isTrue).getD false
  distance point rank := do
    modify (Transcript.record (.single point rank))
    single point rank
  distances points rank := do
    if g.capabilities.isSome then
      modify (Transcript.record (.block points rank))
      block points rank
    else lacks g.label "knn_distances"

/-- An oracle that gives prepared answers. -/
def scripted (answers : List Answer) (g : Guise) : Oracle (Transcript Float) Float :=
  g.oracle
    (fun _ _ => do Step.ofExcept (← nextAnswer answers).toReal)
    (fun _ _ => do Step.ofExcept (← nextAnswer answers).toBlock)

/-- An oracle that passes every query on to another one. -/
def recorded (inner : Oracle (Transcript Float) Float) (g : Guise) :
    Oracle (Transcript Float) Float :=
  g.oracle inner.distance inner.distances

end Oracle

end PointPattern
