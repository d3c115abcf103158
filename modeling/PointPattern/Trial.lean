/-
# One repetition of the experiment

A repetition measures a random part of the data and the same number of points
drawn uniformly from the box. Every distance is raised to the number of axes, and
the two sums are compared: the statistic is the share of the uniform sum in the
total, or one half if both sums vanish. A failing or nonsensical answer of the
oracle ends the repetition; no answer is skipped or replaced.
-/

import PointPattern.Box
import PointPattern.Oracle
import PointPattern.Value.Quantity

namespace PointPattern

open PointPattern.Random

/-- The two sums of a repetition and the share of the first in their total. -/
structure Trial (K : Type) where
  u : K
  w : K
  h : K
  deriving Repr

namespace Trial

variable {K : Type} [Add K] [Div K] [Scalar K]

/-- The repetition with these sums. -/
def ofSums (u w : K) : Trial K :=
  let total := u + w
  ⟨u, w, if Scalar.less Scalar.zero total then u / total else Scalar.half⟩

/-- The repetition with sums that a caller hands in. The share is formed in the
precision of the sums. -/
def ofGiven (u w : Value) : Except NumberError (Trial Float) := do
  let uGiven ← Quantity.ofValue? u
  let wGiven ← Quantity.ofValue? w
  let total ← uGiven.add wGiven
  let share ← if total.isPositive then uGiven.div total else .ok (.real 0 Scalar.half)
  return ⟨← uGiven.toReal?, ← wGiven.toReal?, ← share.toReal?⟩

end Trial

/-! ## Distances of a sample -/

section Queries

variable {σ K : Type}

/-- A failure on a block of queries. A failure that the oracle itself declares is
passed on as it is; any other becomes the origin, as long as a handler of any failure
catches it and its text can be formed. -/
def blockFailure (size : Nat) (rank : Int) : Error → Error
  | .oracle reason failedRank position => .oracle reason failedRank position
  | origin => .oracle (.batch size rank origin) (some rank) none

/-- A failure on a single query. A failure that the oracle itself declares gets
the rank and the position unless it names them; any other becomes the origin, as on
a block. -/
def queryFailure (position : Nat) (rank : Int) : Error → Error
  | .oracle reason failedRank failedPosition =>
    .oracle reason (failedRank.or (some rank)) (failedPosition.or (some position))
  | origin => .oracle (.query position rank origin) (some rank) (some position)

/-- The answers to queries put one after the other, counted from a position on. -/
def askEach (ask : Grid K → Step σ K) (rank : Int) : Nat → List (Grid K) → Step σ (List K)
  | _, [] => pure []
  | position, point :: rest => fun s =>
    match ask point s with
    | (.error e, s) => (.error (queryFailure position rank e), s)
    | (.ok x, s) =>
      match askEach ask rank (position + 1) rest s with
      | (.error e, s) => (.error e, s)
      | (.ok xs, s) => (.ok (x :: xs), s)

/-- The answers to queries put in one block, one answer for each. -/
def askBlock (ask : Grid K → Step σ (Grid K)) (rank : Int) (points : Grid K) (size : Nat) :
    Step σ (List K) := fun s =>
  match ask points s with
  | (.error e, s) => (.error (blockFailure size rank e), s)
  | (.ok answers, s) =>
    if answers.shape = [size] then (.ok answers.values, s)
    else (.error (.oracle (.answerShape answers.shape size) (some rank) none), s)

variable [Scalar K]

/-- Whether a number can be a distance. -/
def isDistance (x : K) : Bool := Scalar.isFinite x && !Scalar.less x Scalar.zero

/-- Refuses the first number that cannot be a distance. -/
def checkDistances (rank : Int) (xs : List K) : Except Error (List K) :=
  match xs.findIdx? fun x => !isDistance x with
  | none => .ok xs
  | some position =>
    .error (.oracle
      (.invalidDistance ("np.float64(" ++ ((xs[position]?).map Scalar.written).getD "" ++ ")")
        position rank)
      (some rank) (some position))

/-- The distance of the given rank for every point of a block, in order. Oracles
that answer blocks are asked once. -/
def queryDistances (o : Oracle σ K) (points : Grid K) (rank : Int) : Step σ (List K) :=
  match points.shape with
  | [] => throw (.grid .noSuchAxis)
  | size :: _ => do
    let xs ←
      if o.supports .batchQuery then askBlock (o.distances · rank) rank points size
      else askEach (o.distance · rank) rank 0 points.subgrids
    Step.ofExcept (checkDistances rank xs)

/-- The sum of the distances, each raised to the number of axes. -/
def aggregate (xs : List K) (dim : Int) : Except Error K :=
  (Scalar.sum (xs.map (Scalar.power · dim))).mapError fun failure => .number (.sum failure)

end Queries

/-! ## The two samples -/

section Samples

variable {σ γ K : Type}

/-- An operation on the state of an oracle and that of a source of randomness. -/
abbrev Draw (σ γ α : Type) : Type := ExceptT Error (StateM (σ × γ)) α

/-- An operation on the oracle alone. -/
def Draw.query {α : Type} (step : Step σ α) : Draw σ γ α := fun (s, g) =>
  let (result, s) := step s
  (result, (s, g))

/-- An operation on the source of randomness alone. -/
def Draw.random {α : Type} (draw : γ → Except Error α × γ) : Draw σ γ α := fun (s, g) =>
  let (result, g) := draw g
  (result, (s, g))

/-- The row with a number; negative numbers count from the end. -/
def rowAt (rows : Array (List K)) (number : Int) : Except Error (List K) :=
  let position := if number < 0 then number + rows.size else number
  if position < 0 then .error (.grid (.rowOutOfRange number rows.size))
  else match rows[position.toNat]? with
    | some row => .ok row
    | none => .error (.grid (.rowOutOfRange number rows.size))

variable [Scalar K]

/-- The sum over a random part of the data. A sampled point is itself in the
corpus, at distance zero, so the rank is one more than that of the neighbor. -/
def sampleReal (o : Oracle σ K) (source : Source γ K) (data : PointSet K) (size k : Int) :
    Draw σ γ K := do
  let numbers ← Draw.random (source.choose data.size size)
  let rows := data.points.toArray
  let chosen ← Draw.query (Step.ofExcept (numbers.mapM (rowAt rows)))
  let xs ← Draw.query (queryDistances o (.ofRows data.dim chosen) (k + 1))
  Draw.query (Step.ofExcept (aggregate xs data.dim))

variable [Add K] [Sub K] [Mul K]

/-- The sum over points drawn uniformly from the box. -/
def sampleUniform (o : Oracle σ K) (source : Source γ K) (box : Box K) (size k : Int) :
    Draw σ γ K := do
  let points ← Draw.random (box.sample source size)
  let xs ← Draw.query (queryDistances o points k)
  Draw.query (Step.ofExcept (aggregate xs box.dim))

/-- One repetition: the real sample first, then the uniform one. -/
def runTrial [Div K] (o : Oracle σ K) (source : Source γ K) (data : PointSet K) (box : Box K)
    (size k : Int) : Draw σ γ (Trial K) := do
  let w ← sampleReal o source data size k
  let u ← sampleUniform o source box size k
  return Trial.ofSums u w

end Samples

end PointPattern
