/-
# Oracles over a corpus

The oracles of this module search a point set that they own. A tree answers for
the Minkowski metrics and insists on finite coordinates; exhaustive search answers
for every metric. Both give the exact distance of the given rank, counted with
multiplicity, so that a corpus point that equals the query has distance zero to it.
-/

import PointPattern.Metric
import PointPattern.Nearest
import PointPattern.Oracle
import PointPattern.PointSet

namespace PointPattern.Oracle

variable {σ K : Type}

/-! ## Queries -/

/-- A rank is at least one and at most the size of the corpus. -/
def checkRank (rank : Int) (size : Nat) : Except Error Nat :=
  if rank < 1 then .error (.oracle (.rankBelowOne rank) (some rank) none)
  else if (size : Int) < rank then
    .error (.oracle (.rankBeyondCorpus rank size) (some rank) none)
  else .ok rank.toNat

/-- A grid with a single axis is one query. -/
def asBlock (g : Grid K) : Grid K :=
  match g.shape with
  | [n] => ⟨[1, n], g.values⟩
  | _ => g

/-- The query points of a block, all with as many coordinates as the corpus. -/
def queries (g : Grid K) (dim : Nat) : Except Error (List (List K)) :=
  let block := asBlock g
  match block.shape with
  | [m, n] =>
    if n = dim then .ok (Grid.cut m n block.values)
    else .error (.oracle (.queryShape block.shape dim) none none)
  | shape => .error (.oracle (.queryShape shape dim) none none)

variable [Scalar K]

/-- The distance from a query to the corpus point of the given rank. -/
@[specialize] def rankedDistance (measure : List K → List K → K) (corpus : List (List K))
    (rank : Nat) (query : List K) : K :=
  (kthSmallest? rank (corpus.map (measure query))).getD Scalar.zero

/-- The distances of a block of queries. -/
@[specialize] def rankedDistances (measure : List K → List K → K) (corpus : List (List K))
    (rank : Nat) (block : List (List K)) : Grid K :=
  ⟨[block.length], block.map (rankedDistance measure corpus rank)⟩

/-- The answer to the first query of a block. -/
def firstAnswer (answers : Grid K) : Except Error K :=
  match answers.values with
  | x :: _ => .ok x
  | [] => .error (.grid (.rowOutOfRange 0 0))

/-- The capabilities of the oracles that run on the processor. -/
def processorCapabilities (name : String) : Bool :=
  name = Capability.batchQuery.name || name = Capability.threadSafe.name

/-- An oracle that answers blocks by a function of the block and the rank. -/
def ofBlocks (label ownName : String) (size : Nat) (answer : Grid K → Int → Except Error (Grid K)) :
    Oracle σ K where
  label
  ownName := some ownName
  advertises := some processorCapabilities
  size := some size
  distance point rank := Step.ofExcept (do firstAnswer (← answer point rank))
  distances points rank := Step.ofExcept (answer points rank)

variable [Add K] [Sub K] [Mul K] [Div K] [Roots K]

/-! ## Queries of any kind -/

/-- Puts a query that is given by values. The rank is read and checked before the
points are. -/
def ask {α : Type} (o : Oracle σ Float) (put : Grid Float → Int → Step σ α)
    (points rank : Value) : Step σ α := do
  let rank ← Step.ofExcept rank.toInteger
  match o.size with
  | none => pure ()
  | some size => let _ ← Step.ofExcept (checkRank rank size)
  put (← Step.ofExcept points.toBlock) rank

/-! ## Tree search -/

/-- The answers of the tree to a block of queries. Orders below one and
coordinates that are not finite are refused. -/
def treeAnswer (points : PointSet K) (order : Float) (g : Grid K) (rank : Int) :
    Except Error (Grid K) := do
  let rank ← checkRank rank points.size
  let block ← queries g points.dim
  if order < 1 then throw (.metric .orderBelowOne)
  if !(block.all fun query => query.all Scalar.isFinite) then
    throw (.metric .coordinateNotFinite)
  return rankedDistances (Metric.minkowskiDistance order) points.points rank block

/-- The oracle that searches a tree by the Minkowski metric of an order. -/
def tree (points : PointSet K) (order : Float) : Oracle σ K :=
  ofBlocks "KDTreeOracle" "kdtree" points.size (treeAnswer points order)

/-! ## Exhaustive search -/

/-- The answers of exhaustive search. The metric is resolved when a query comes
in, after the rank and the shape of the query were checked. -/
def exhaustiveAnswer (points : PointSet K) (metric : Value) (settings : List (String × Value))
    (g : Grid K) (rank : Int) : Except Error (Grid K) := do
  let rank ← checkRank rank points.size
  let block ← queries g points.dim
  let metric ← Metric.resolve metric points.dim settings
  return rankedDistances metric.distance points.points rank block

/-- The name of the oracle that searches exhaustively. -/
def exhaustiveName (metric : Value) : String :=
  "brute_" ++ metric.text?.getD "callable"

/-- The oracle that searches exhaustively by a metric. -/
def exhaustive (points : PointSet K) (metric : Value) (settings : List (String × Value)) :
    Oracle σ K :=
  ofBlocks "BruteForceOracle" (exhaustiveName metric) points.size
    (exhaustiveAnswer points metric settings)

/-! ## The default oracle of a metric -/

/-- The metrics that the tree answers for, with their Minkowski order. -/
def treeMetrics : List (String × Float) :=
  [("euclidean", 2), ("manhattan", 1), ("cityblock", 1), ("chebyshev", 1 / 0)]

/-- The order of the Minkowski metric for which the tree is used. Settings other
than the order call for exhaustive search. -/
def treeOrder? (metric : Value) (settings : List (String × Value)) :
    Except Error (Option Float) :=
  match metric.text? with
  | none => .ok none
  | some name =>
    match treeMetrics.lookup name with
    | some order => if settings.isEmpty then .ok (some order) else .ok none
    | none =>
      if name = "minkowski" && settings.all (fun (parameter, _) => parameter = "p") then
        match Value.field? "p" settings with
        | none => .ok (some 2)
        | some v => v.toReal.map some
      else .ok none

/-- The default oracle of a metric: the tree for Minkowski metrics, exhaustive
search for everything else. -/
def ofMetric (points : PointSet K) (metric : Value) (settings : List (String × Value)) :
    Except Error (Oracle σ K) := do
  match ← treeOrder? metric settings with
  | some order => return tree points order
  | none => return exhaustive points metric settings

end PointPattern.Oracle
