/-
# Oracles on a device

An accelerator may be present in two kinds, and a caller may ask for one of them,
for any, or for the processor. An oracle on a device computes distances of queries
in chunks of a given size and writes the answers of each chunk into its places;
places that no chunk covers stay unwritten. Every chunk and every wait for the
device leaves an entry in a log.
-/

import PointPattern.Oracle.Corpus

namespace PointPattern

/-- The accelerators that the tensor library finds. It may not know the second
kind at all. -/
structure Accelerators where
  cuda : Bool
  mps : Option Bool
  deriving DecidableEq, Repr

/-- Where tensors are placed. -/
inductive Device where
  | cpu
  | cuda
  | mps
  deriving DecidableEq, Repr

namespace Device

/-- The name of a device. -/
def name : Device → String
  | cpu => "cpu"
  | cuda => "cuda"
  | mps => "mps"

/-- The accelerator that is found, if there is one and the library is there. -/
def detect (library : Option Accelerators) : Option Device :=
  match library with
  | none => none
  | some found =>
    if found.cuda then some cuda
    else if found.mps = some true then some mps
    else none

/-- The device that a preference stands for. -/
def select (library : Option Accelerators) (preference : String) : Except Error Device :=
  if preference = "cpu" then .ok cpu
  else if preference ≠ "auto" && preference ≠ "cuda" && preference ≠ "mps" then
    .error (.device (.unknown preference))
  else
    match detect library with
    | none => .error (.device .noAccelerator)
    | some found =>
      if preference = "auto" || preference = found.name then .ok found
      else if preference = "cuda" then .error (.device .onlyMetal)
      else if library.bind (·.mps) = some true then .ok mps
      else .error (.device .noMetal)

end Device

/-- What happened on a device. -/
inductive DeviceEvent where
  /-- Distances between so many queries and so many corpus points. -/
  | distances (queries corpus : Nat)
  | synchronized (device : Device)
  deriving DecidableEq, Repr

namespace Oracle

variable {σ K : Type}

/-- The first positions of the chunks of a block. A chunk size below zero covers
nothing. -/
def chunkStarts (count : Nat) (size : Int) : List Nat :=
  if size ≤ 0 then []
  else (List.range ((count + size.toNat - 1) / size.toNat)).map (· * size.toNat)

/-- Writes values into consecutive places from the given one on. -/
def write (places : List (Option K)) (start : Nat) (values : List K) : List (Option K) :=
  places.take start ++ values.map some ++ places.drop (start + values.length)

/-- Chunk by chunk, the answers are written into their places. -/
def fillChunks (answer : List (List K) → List K) (queries : List (List K)) (size : Int) :
    List (Option K) :=
  (chunkStarts queries.length size).foldl
    (fun places start =>
      write places start (answer ((queries.drop start).take size.toNat)))
    (List.replicate queries.length none)

/-- The sizes of the chunks of a block. -/
def chunkSizes (queries : List (List K)) (size : Int) : List Nat :=
  (chunkStarts queries.length size).map fun start =>
    ((queries.drop start).take size.toNat).length

/-- An oracle on a device, with the way distances are computed there. -/
structure OnDevice (K : Type) where
  device : Device
  points : PointSet K
  chunkSize : Int
  measure : List K → List K → K
  /-- What a place holds that no chunk has written. -/
  unwritten : K

namespace OnDevice

variable [Scalar K]

/-- The answers to a block before unwritten places are read. -/
def places (o : OnDevice K) (g : Grid K) (rank : Int) :
    Except Error (List (List K) × List (Option K)) := do
  let rank ← checkRank rank o.points.size
  let block ← queries g o.points.dim
  if o.chunkSize = 0 then throw (.metric .emptyBlocks)
  let answer (chunk : List (List K)) := chunk.map (rankedDistance o.measure o.points.points rank)
  return (block, fillChunks answer block o.chunkSize)

/-- The answers to a block, and the work on the device that they took. -/
def answer (o : OnDevice K) (log : DeviceEvent → σ → σ) (g : Grid K) (rank : Int) :
    Step σ (Grid K) := fun s =>
  match o.places g rank with
  | .error e => (.error e, s)
  | .ok (block, places) =>
    let s := (chunkSizes block o.chunkSize).foldl
      (fun s count => log (.distances count o.points.size) s) s
    (.ok ⟨[places.length], places.map (·.getD o.unwritten)⟩, s)

/-- The oracle that computes on a device. Waiting matters only for accelerators. -/
def oracle (o : OnDevice K) (log : DeviceEvent → σ → σ) : Oracle σ K where
  label := "TorchOracle"
  ownName := some ("torch_" ++ o.device.name)
  advertises := some fun name =>
    name = Capability.batchQuery.name ||
      (name = Capability.gpuNative.name && o.device ≠ .cpu)
  size := some o.points.size
  device := some o.device.name
  distance point rank := do
    let answers ← o.answer log point rank
    Step.ofExcept (firstAnswer answers)
  distances := o.answer log
  synchronize := some fun s => if o.device = .cpu then s else log (.synchronized o.device) s

end OnDevice

/-- The Minkowski distance as the device computes it: one kind of accelerator
works in single precision. -/
def deviceMeasure (device : Device) (order : Float) (u v : List Float) : Float :=
  match device with
  | .mps =>
    (Metric.minkowskiDistance order (u.map Float.toFloat32) (v.map Float.toFloat32)).toFloat
  | _ => Metric.minkowskiDistance order u v

/-- An oracle on the device that a preference stands for. -/
def onDevice? (library : Option Accelerators) (points : PointSet Float) (preference : String)
    (order : Value) (chunkSize : Value) : Except Error (OnDevice Float) := do
  let device ← Device.select library preference
  let order ← order.toReal
  let chunkSize ← chunkSize.toInteger
  return ⟨device, points, chunkSize, deviceMeasure device order, 0⟩

end Oracle

end PointPattern
