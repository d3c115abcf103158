/-
# Random choice of distinct rows

A sample without repetition is drawn in one of two ways. A large sample from many
rows is the end of a partial shuffle of all rows. Any other sample is collected one
by one, where a row that was taken before is replaced by the newest candidate, and
shuffled afterwards.
-/

import PointPattern.Grid
import PointPattern.Random.Stream

namespace PointPattern.Random

namespace Stream

/-- Exchanges each place, from the last of them downwards, with a random place at
or below it. The first argument counts the exchanges, the second is the place
below which they start. -/
def shuffleFrom : Nat → Nat → Array Nat → Stream → Array Nat × Stream
  | 0, _, rows, s => (rows, s)
  | _ + 1, 0, rows, s => (rows, s)
  | count + 1, place + 1, rows, s =>
    let (other, s) := s.bounded place
    shuffleFrom count place (rows.swapIfInBounds place other) s

/-- The end of a partial shuffle of all rows. -/
def chooseByShuffle (n k : Nat) (s : Stream) : List Nat × Stream :=
  let (rows, s) := shuffleFrom (n - max (n - k) 1) n (Array.range n) s
  ((rows.toList.drop (n - k)), s)

/-- Collects rows: each candidate admits one more row to the choice, and takes
its place if the row drawn was taken before. -/
def collect (candidate : Nat) : Nat → Array Bool → Array Nat → Stream → Array Nat × Stream
  | 0, _, rows, s => (rows, s)
  | count + 1, taken, rows, s =>
    let (drawn, s) := s.bounded candidate
    let row := if taken.getD drawn false then candidate else drawn
    collect (candidate + 1) count (taken.setIfInBounds row true) (rows.push row) s

/-- Rows collected one by one and then shuffled. -/
def chooseByCollecting (n k : Nat) (s : Stream) : List Nat × Stream :=
  let (rows, s) := collect (n - k) k (Array.replicate n false) #[] s
  let (rows, s) := shuffleFrom (k - 1) k rows s
  (rows.toList, s)

/-- As many distinct row numbers below `n` as asked for, in random order. -/
def choose (n k : Nat) (s : Stream) : List Nat × Stream :=
  if 10000 < n && n / 50 < k then chooseByShuffle n k s else chooseByCollecting n k s

end Stream

/-! ## Sources of randomness -/

/-- What a run needs from its source of randomness: distinct rows of the data and
blocks of uniform numbers. The source is a state that every request moves on. -/
structure Source (γ K : Type) where
  /-- Row numbers below the first argument; the second says how many. -/
  choose : Nat → Int → γ → Except Error (List Int) × γ
  /-- A block with the given numbers of rows and columns. -/
  block : Int → Nat → γ → Except Error (Grid K) × γ

/-- Fills a block row by row from single draws. -/
def fillBlock {γ K : Type} (draw : Nat → γ → List K × γ) (rows : Int) (dim : Nat) (s : γ) :
    Except Error (Grid K) × γ :=
  if rows < 0 then (.error (.grid .negativeExtent), s)
  else
    let (values, s) := draw (rows.toNat * dim) s
    (.ok ⟨[rows.toNat, dim], values⟩, s)

/-- The source that draws from a stream. -/
def streamSource (K : Type) [Div K] [Scalar K] : Source Stream K where
  choose n size s :=
    if (n : Int) < size then (.error (.random .sampleTooLarge), s)
    else if size < 0 then (.error (.grid .negativeExtent), s)
    else
      let (rows, s) := s.choose n size.toNat
      (.ok (rows.map fun (row : Nat) => (row : Int)), s)
  block := fillBlock (Stream.uniforms (K := K))

/-- A request to a scripted source. -/
inductive Request where
  | choose (n : Nat) (size : Int)
  | block (rows : Int) (dim : Nat)
  deriving DecidableEq, Repr

/-- The source that always gives the same rows and the same numbers, and keeps a
log of the requests, newest first. -/
def scriptedSource {K : Type} (rows : List Int) (numbers : List K) : Source (List Request) K where
  choose n size log := (.ok rows, .choose n size :: log)
  block count dim log :=
    let log := .block count dim :: log
    if count < 0 then (.error (.grid .negativeExtent), log)
    else
      let shape := [count.toNat, dim]
      if numbers.length = Grid.sizeOf shape then (.ok ⟨shape, numbers⟩, log)
      else (.error (.grid (.wrongSize numbers.length shape)), log)

end PointPattern.Random
