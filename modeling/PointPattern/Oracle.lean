/-
# Neighbor oracles

An oracle owns a corpus and a metric and answers one kind of question: how far a
point is from the corpus point of a given rank. It may answer a whole block of
queries at once, and it advertises what it can do under names of capabilities; an
oracle that advertises nothing still answers single queries. Asking may change a
state, so that oracles with a memory and records of calls fit the same interface.
-/

import PointPattern.Error
import PointPattern.Grid

namespace PointPattern

/-- An operation that may change a state and may fail. The state is kept on
failure. -/
abbrev Step (σ α : Type) : Type := ExceptT Error (StateM σ) α

/-- An operation that does not look at the state. -/
def Step.ofExcept {σ α : Type} (result : Except Error α) : Step σ α := fun s => (result, s)

/-- What an oracle may advertise. -/
inductive Capability where
  /-- A whole block of queries is answered in one call. -/
  | batchQuery
  /-- Distances are computed on an accelerator. -/
  | gpuNative
  /-- The oracle may be asked by several workers at a time. -/
  | threadSafe
  deriving DecidableEq, Repr

/-- The name under which a capability is advertised. -/
def Capability.name : Capability → String
  | batchQuery => "batch_query"
  | gpuNative => "gpu_native"
  | threadSafe => "thread_safe"

/-- All capabilities in the order of their names. -/
def Capability.all : List Capability := [batchQuery, gpuNative, threadSafe]

/-- A neighbor oracle with a state. Only queries may fail: an optional member that
fails when it is asked for is left out. -/
structure Oracle (σ K : Type) where
  /-- The class of the oracle in messages. -/
  label : String
  /-- The name that the oracle gives itself. -/
  ownName : Option String := none
  /-- Whether it answers queries at all. -/
  answers : Bool := true
  /-- Which names it advertises, if it can be asked. -/
  advertises : Option (String → Bool) := none
  /-- The number of points of its corpus, if it tells. -/
  size : Option Nat := none
  /-- The device on which it computes, if it tells. -/
  device : Option String := none
  /-- The distance of one query point to its neighbor of the given rank. -/
  distance : Grid K → Int → Step σ K
  /-- The distances of a block of query points. -/
  distances : Grid K → Int → Step σ (Grid K)
  /-- Waits for work that was queued on a device. -/
  synchronize : Option (σ → σ) := none

namespace Oracle

variable {σ K : Type}

/-- Whether an oracle advertises a name. One that cannot be asked advertises
nothing. -/
def supportsName (o : Oracle σ K) (name : String) : Bool :=
  match o.advertises with
  | none => false
  | some check => check name

/-- Whether an oracle advertises a capability. -/
def supports (o : Oracle σ K) (capability : Capability) : Bool :=
  o.supportsName capability.name

/-- The name of an oracle in reports. -/
def name (o : Oracle σ K) : String := o.ownName.getD o.label

/-- The refusal of an operation that the oracle does not have. -/
def lacks {α : Type} (label operation : String) : Step σ α :=
  throw (.noSuchOperation label operation)

/-- An object that answers no queries. -/
def silent (label : String) : Oracle σ K where
  label
  answers := false
  distance _ _ := lacks label "knn_distance"
  distances _ _ := lacks label "knn_distances"

end Oracle

end PointPattern
