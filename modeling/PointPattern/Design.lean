/-
# Designs of a run

A design fixes everything that decides a run: the data, the sample size, the number
of repetitions, the rank of the neighbor, the bounds of the sampling box, the seed
and the request for workers. It is built from settings of any kind, and every
mistake in them is found before anything random happens. What the checks establish
is part of the type.
-/

import PointPattern.Box

namespace PointPattern

/-- Settings as a caller gives them. -/
structure Settings where
  data : Value
  sampleSize : Value := .null
  repetitions : Value := .int 1
  k : Value := .int 1
  minima : Value := .null
  maxima : Value := .null
  seed : Value := .null
  jobs : Value := .int 1

/-- A checked design over numbers of a kind. -/
structure Design (K : Type) where
  points : PointSet K
  sampleSize : Nat
  repetitions : Nat
  k : Nat
  bounds : Option (Bounds K points.dim)
  seed : Option Nat
  /-- The number of workers asked for; minus one stands for all processors. -/
  jobs : Int
  sampleSize_pos : 1 ≤ sampleSize
  sampleSize_le : sampleSize ≤ points.size
  repetitions_pos : 1 ≤ repetitions
  k_pos : 1 ≤ k
  jobs_valid : jobs = -1 ∨ 1 ≤ jobs

/-- Ten percent of the data, at least one point. A half is rounded to the even
number. -/
def defaultSampleSize (observations : Int) : Except NumberError Int :=
  match Number.floatOfInt? observations with
  | none => .error .tooLarge
  | some x => .ok (max 1 ((Number.nearestInt? (0.1 * x)).getD 1))

/-- The number of workers that a value asks for. -/
def checkJobs (v : Value) : Except Error { jobs : Int // jobs = -1 ∨ 1 ≤ jobs } :=
  match v.integral? with
  | none => .error (.invalid (.jobsNotAnInteger v))
  | some i =>
    if h : i = -1 ∨ 1 ≤ i then .ok ⟨i, h⟩ else .error (.invalid (.jobsOutOfRange i))

/-- The seed that a value gives, if any. -/
def checkSeed (v : Value) : Except Error (Option Nat) :=
  if v.isNull then .ok none
  else match v.integral? with
    | none => .error (.invalid (.seedNotAnInteger v))
    | some i => if i < 0 then .error (.invalid (.negativeSeed i)) else .ok (some i.toNat)

namespace Design

/-- The sample size that a value asks for, or the default for absent values. -/
def chosenSampleSize (v : Value) (observations : Nat) : Except Error Value :=
  if v.isNull then ((defaultSampleSize observations).map Value.int).mapError .number else .ok v

/-- The design that settings describe. The data are checked first, then the
numbers, the bounds, the workers and the seed. -/
def ofSettings (s : Settings) : Except Error (Design Float) := do
  let points ← checkPoints s.data "data"
  let sampleSize ← chosenSampleSize s.sampleSize points.size
  let sampleSize ← checkInteger sampleSize "sample_size" 1
  let repetitions ← checkInteger s.repetitions "repetitions" 1
  let k ← checkInteger s.k "k" 1
  if h : sampleSize.val.toNat ≤ points.size then
    let bounds ← checkBounds s.minima s.maxima points.dim
    let jobs ← checkJobs s.jobs
    let seed ← checkSeed s.seed
    return {
      points
      sampleSize := sampleSize.val.toNat
      repetitions := repetitions.val.toNat
      k := k.val.toNat
      bounds
      seed
      jobs := jobs.val
      sampleSize_pos := by have := sampleSize.property; omega
      sampleSize_le := h
      repetitions_pos := by have := repetitions.property; omega
      k_pos := by have := k.property; omega
      jobs_valid := jobs.property }
  else throw (.sampleExceedsData sampleSize.val points.size)

variable {K L : Type}

/-- The same design over another kind of number. -/
def map (f : K → L) (d : Design K) : Design L where
  points := d.points.map f
  sampleSize := d.sampleSize
  repetitions := d.repetitions
  k := d.k
  bounds := d.bounds.map (·.map f)
  seed := d.seed
  jobs := d.jobs
  sampleSize_pos := d.sampleSize_pos
  sampleSize_le := by simpa [PointSet.map, PointSet.size] using d.sampleSize_le
  repetitions_pos := d.repetitions_pos
  k_pos := d.k_pos
  jobs_valid := d.jobs_valid

/-- The sampling box of a design. -/
def box [Sub K] [Scalar K] (d : Design K) : Except Error (Box K) :=
  match d.bounds with
  | some bounds => .ok bounds.box
  | none => Box.hull d.points.points

/-- The settings that describe a design again. -/
def toSettings (d : Design Float) : Settings where
  data := .ofGrid d.points.toGrid
  sampleSize := .int d.sampleSize
  repetitions := .int d.repetitions
  k := .int d.k
  minima := (d.bounds.map fun b => Value.ofGrid (.ofPoint b.low)).getD .null
  maxima := (d.bounds.map fun b => Value.ofGrid (.ofPoint b.high)).getD .null
  seed := (d.seed.map fun n => Value.int n).getD .null
  jobs := .int d.jobs

end Design

end PointPattern
