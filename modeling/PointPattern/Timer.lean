/-
# Timing of a run

A timer reads a clock when it is started and stopped and at both ends of each
section. Sections of one name accumulate, also when a section ends by a failure.
The total spans the last start and the stop after it.
-/

import PointPattern.Error
import PointPattern.Scalar

namespace PointPattern

/-- A timer: when it was started, the total once it was stopped, and the time of
each section in the order of first completion. -/
structure Timer (K : Type) where
  started : Option K := none
  total : Option K := none
  sections : List (String × K) := []
  deriving Repr

namespace Timer

variable {K : Type} [Add K] [Sub K] [Scalar K]

/-- Starts the timer at a reading of the clock. -/
def start (t : Timer K) (reading : K) : Timer K := { t with started := some reading }

/-- Stops the timer at a reading of the clock, which is taken only if the timer
was started. -/
def stop (t : Timer K) (reading : K) : Except Error (Timer K) :=
  match t.started with
  | none => .error (.timer .stopBeforeStart)
  | some began => .ok { t with total := some (reading - began) }

/-- Adds the time between two readings to a section. -/
def addSection (name : String) (began ended : K) : List (String × K) → List (String × K)
  | [] => [(name, Scalar.zero + ended - began)]
  | (other, time) :: rest =>
    if other = name then (other, time + ended - began) :: rest
    else (other, time) :: addSection name began ended rest

/-- Closes a section that was opened at an earlier reading. -/
def close (t : Timer K) (name : String) (began ended : K) : Timer K :=
  { t with sections := addSection name began ended t.sections }

/-- The name under which the total is reported. -/
def totalName : String := "total_seconds"

/-- The total and then the sections. A section that bears the name of the total
takes its place. -/
def result (t : Timer K) : Except Error (List (String × K)) :=
  match t.total with
  | none => .error (.timer .resultBeforeStop)
  | some total =>
    .ok ((totalName, (t.sections.lookup totalName).getD total) ::
      t.sections.filter fun (name, _) => name ≠ totalName)

end Timer

/-! ## A timer with its open sections -/

/-- What is seen of a stopwatch from outside: it waits for queued work, or it reads the
clock. -/
inductive ClockEvent (K : Type) where
  | awaited
  | read (reading : K)
  deriving DecidableEq, Repr

/-- A timer, the sections that are open with the reading at which they were opened,
the innermost first, whether queued work is awaited, what has happened so far, and the
readings of the clock that are still to come. -/
structure Stopwatch (K : Type) where
  timer : Timer K := {}
  opened : List (String × K) := []
  awaits : Bool := true
  log : List (ClockEvent K) := []
  clock : List K := []

/-- An operation on a stopwatch. -/
inductive TimerAction where
  | start
  | stop
  | enter (name : String)
  /-- The innermost section ends, normally or by a failure. -/
  | leave
  deriving DecidableEq, Repr

namespace Stopwatch

variable {K : Type} [Add K] [Sub K] [Scalar K]

/-- What happens at a reading of the clock. -/
def boundary (awaits : Bool) (reading : K) : List (ClockEvent K) :=
  if awaits then [.awaited, .read reading] else [.read reading]

/-- How often queued work was awaited. -/
def syncs (w : Stopwatch K) : Nat :=
  w.log.countP fun
    | .awaited => true
    | .read _ => false

/-- Waits for queued work, if it is awaited, and then reads the clock. -/
def read (w : Stopwatch K) : K × Stopwatch K :=
  let reading := w.clock.headD Scalar.zero
  (reading, { w with log := w.log ++ boundary w.awaits reading, clock := w.clock.drop 1 })

/-- Carries out an operation. A timer that was not started is not stopped, and no
section is left where none is open; the clock is not read then. -/
def act (w : Stopwatch K) (action : TimerAction) : Except Error Unit × Stopwatch K :=
  let (reading, after) := w.read
  match action with
  | .start => (.ok (), { after with timer := w.timer.start reading })
  | .stop =>
    match w.timer.stop reading with
    | .error e => (.error e, w)
    | .ok timer => (.ok (), { after with timer })
  | .enter name => (.ok (), { after with opened := (name, reading) :: w.opened })
  | .leave =>
    match w.opened with
    | [] => (.ok (), w)
    | (name, began) :: rest =>
      (.ok (), { after with timer := w.timer.close name began reading, opened := rest })

end Stopwatch

end PointPattern
