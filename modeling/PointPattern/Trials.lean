/-
# Repetitions on several workers

The repetitions are cut into contiguous chunks of nearly equal length, one for each
worker. A worker runs its repetitions in order, writes each into its own place and
keeps running moments of its own; it stops at the first failure. The moments are
merged in the order of the chunks, and of several failures the one of the first
chunk counts. Every repetition starts a random stream that depends on its number
alone, so the order in which the workers take turns does not matter to the results;
the turns are an explicit argument here.
-/

import PointPattern.Moments
import PointPattern.Trial

namespace PointPattern

open PointPattern.Random

/-! ## Chunks -/

/-- The number of workers: all processors for a negative request, never more than
there are repetitions, and one at least. -/
def resolveJobs (jobs repetitions : Int) (processors : Option Nat) : Int :=
  let wanted : Int :=
    if jobs < 0 then (match processors with
      | none => 1
      | some 0 => 1
      | some n => (n : Int))
    else jobs
  max 1 (min wanted repetitions)

/-- The number of places for the repetitions that are asked for. -/
def repetitionCount (repetitions : Int) : Except Error Nat :=
  if repetitions < 0 then .error (.grid .negativeExtent) else .ok repetitions.toNat

/-- The numbers in one of several contiguous pieces; the first pieces take one
more each if the division leaves a rest. -/
def chunk (count pieces i : Nat) : List Nat :=
  let start := i * (count / pieces) + min i (count % pieces)
  let size := count / pieces + if i < count % pieces then 1 else 0
  (List.range size).map (start + ·)

/-- All pieces in order. -/
def chunks (count pieces : Nat) : List (List Nat) :=
  (List.range pieces).map (chunk count pieces)

/-! ## Tallies -/

/-- Running moments of the three numbers of a repetition. -/
structure Tally (K : Type) where
  h : Moments K
  u : Moments K
  w : Moments K

namespace Tally

variable {K : Type} [Scalar K]

/-- The tally of no repetition. -/
def empty : Tally K := ⟨.empty, .empty, .empty⟩

variable [Add K] [Sub K] [Mul K] [Div K]

/-- One more repetition. -/
def push (t : Tally K) (trial : Trial K) : Tally K :=
  ⟨t.h.push trial.h, t.u.push trial.u, t.w.push trial.w⟩

/-- The tally of the repetitions of both. -/
def merge (t other : Tally K) : Tally K :=
  ⟨t.h.merge other.h, t.u.merge other.u, t.w.merge other.w⟩

end Tally

/-! ## Workers -/

/-- A worker: the repetitions it has still to run, its own tally, and the failure
that stopped it. -/
structure Worker (K : Type) where
  pending : List Nat
  tally : Tally K
  failure : Option Error := none

/-- All workers, the places of the repetitions, and the state of the oracle. -/
structure Progress (σ K : Type) where
  workers : List (Worker K)
  places : List (Option (Trial K))
  state : σ

/-- The numbers and moments of all repetitions. -/
structure Summary (K : Type) where
  trials : List (Trial K)
  tally : Tally K

namespace Progress

variable {σ K : Type} [Add K] [Sub K] [Mul K] [Div K] [Scalar K]

/-- Nothing has been run yet. -/
def start (count pieces : Nat) (s : σ) : Progress σ K where
  workers := (chunks count pieces).map fun pending => { pending, tally := .empty }
  places := List.replicate count none
  state := s

/-- A worker runs its next repetition. A worker that has none left, or that was
stopped, does nothing. -/
def advance (run : Nat → Step σ (Trial K)) (p : Progress σ K) (i : Nat) : Progress σ K :=
  match p.workers[i]? with
  | none => p
  | some worker =>
    match worker.pending with
    | [] => p
    | j :: rest =>
      match run j p.state with
      | (.ok trial, s) =>
        { workers := p.workers.set i { worker with pending := rest, tally := worker.tally.push trial }
          places := p.places.set j (some trial)
          state := s }
      | (.error e, s) =>
        { p with
          workers := p.workers.set i { worker with pending := [], failure := some e }
          state := s }

/-- The workers take turns. -/
def runTurns (run : Nat → Step σ (Trial K)) (turns : List Nat) (p : Progress σ K) :
    Progress σ K :=
  turns.foldl (advance run) p

/-- The failure of the first worker that failed. -/
def failure? (p : Progress σ K) : Option Error :=
  p.workers.findSome? (·.failure)

/-- What the workers have found, or the failure of the first of them that failed. -/
def collect (p : Progress σ K) : Except Error (Summary K) :=
  match p.failure? with
  | some e => .error e
  | none =>
    .ok ⟨p.places.filterMap id, p.workers.foldl (fun tally worker => tally.merge worker.tally) .empty⟩

end Progress

section Run

variable {σ γ K : Type} [Add K] [Sub K] [Mul K] [Div K] [Scalar K]

/-- The turns in which one worker after the other runs all of its repetitions. -/
def turnsInOrder (count pieces : Nat) : List Nat :=
  (List.range pieces).flatMap fun i => List.replicate (chunk count pieces i).length i

/-- The repetition with a number, on the stream that this number starts. -/
def repetition (o : Oracle σ K) (source : Source γ K) (stream : Nat → γ) (data : PointSet K)
    (box : Box K) (size k : Int) (j : Nat) : Step σ (Trial K) := fun s =>
  let (result, (s, _)) := runTrial o source data box size k (s, stream j)
  (result, s)

/-- Runs repetitions on workers that take the given turns. -/
def runInterleaved (run : Nat → Step σ (Trial K)) (count workers : Nat) (turns : List Nat) :
    Step σ (Summary K) := fun s =>
  let p := (Progress.start count workers s).runTurns run turns
  (p.collect, p.state)

/-- Runs all repetitions, one worker after the other. -/
def runTrials (run : Nat → Step σ (Trial K)) (count workers : Nat) : Step σ (Summary K) :=
  runInterleaved run count workers (turnsInOrder count workers)

end Run

end PointPattern
