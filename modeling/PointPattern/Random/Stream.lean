/-
# A random stream

The stream is a linear congruential sequence of one hundred and twenty-eight bits
whose output rotates the folded state. Halves of an output serve as words of
thirty-two bits; the upper half waits for the next request of a word. A bounded
number is drawn by multiplication and a rejection test, a uniform real number from
fifty-three bits.
-/

import PointPattern.Random.Seed
import PointPattern.Scalar

namespace PointPattern.Random

/-- The state of a stream. -/
structure Stream where
  state : Nat
  increment : Nat
  /-- The unused upper half of an earlier output. -/
  kept : Option Nat := none
  deriving DecidableEq, Repr

namespace Stream

/-- The next state of the congruential sequence. -/
def advance (s : Stream) : Stream :=
  { s with state := (s.state * 0x2360ed051fc65da44385df649fccf645 + s.increment) % Nat.pow 2 128 }

/-- Two words of thirty-two bits as one of sixty-four. -/
def joinWords (low high : UInt32) : Nat := low.toNat + high.toNat * Nat.pow 2 32

/-- The stream that a seed starts. -/
def ofSeed (seed : Seed) : Stream :=
  match seed.pool.expand 8 with
  | [a, b, c, d, e, f, g, h] =>
    let initial := joinWords a b * Nat.pow 2 64 + joinWords c d
    let sequence := joinWords e f * Nat.pow 2 64 + joinWords g h
    let start : Stream := ⟨0, (2 * sequence + 1) % Nat.pow 2 128, none⟩
    let first := start.advance
    advance { first with state := (first.state + initial) % Nat.pow 2 128 }
  | _ => ⟨0, 1, none⟩

/-- Sixty-four random bits: the folded state, rotated to the right by its six
highest bits. -/
def next64 (s : Stream) : Nat × Stream :=
  let s := s.advance
  let folded := (s.state / Nat.pow 2 64) ^^^ (s.state % Nat.pow 2 64)
  let turn := s.state / Nat.pow 2 122
  (folded / Nat.pow 2 turn + folded % Nat.pow 2 turn * Nat.pow 2 (64 - turn), s)

/-- Thirty-two random bits. -/
def next32 (s : Stream) : Nat × Stream :=
  match s.kept with
  | some high => (high, { s with kept := none })
  | none =>
    let (bits, s) := s.next64
    (bits % Nat.pow 2 32, { s with kept := some (bits / Nat.pow 2 32) })

/-- Draws products until the low half of one passes the threshold. Half of all
draws pass at the least, and the fuel is never used up in practice. -/
def drawAbove (count threshold : Nat) : Nat → Stream → Nat × Stream
  | 0, s =>
    let (bits, s) := s.next32
    (bits * count, s)
  | fuel + 1, s =>
    let (bits, s) := s.next32
    let product := bits * count
    if product % Nat.pow 2 32 < threshold then drawAbove count threshold fuel s else (product, s)

/-- A random number from zero to the given bound, both included. The bound zero
needs no draw. -/
def bounded (bound : Nat) (s : Stream) : Nat × Stream :=
  if bound = 0 then (0, s)
  else
    let count := bound + 1
    let (product, s) := drawAbove count ((Nat.pow 2 32 - count) % count) 1000 s
    (product / Nat.pow 2 32, s)

/-- A random number from zero to below one. -/
def uniform {K : Type} [Div K] [Scalar K] (s : Stream) : K × Stream :=
  let (bits, s) := s.next64
  ((Scalar.ofNat (bits / Nat.pow 2 11) : K) / Scalar.ofNat (Nat.pow 2 53), s)

/-- Several uniform numbers in a row. -/
def uniforms {K : Type} [Div K] [Scalar K] : Nat → Stream → List K × Stream
  | 0, s => ([], s)
  | n + 1, s =>
    let (x, s) := s.uniform (K := K)
    let (xs, s) := uniforms n s
    (x :: xs, s)

end Stream

end PointPattern.Random
