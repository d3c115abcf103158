/-
# Order statistics of distances

The distance of a given rank is found without sorting everything: only as many of
the smallest distances as the rank says are kept, the largest of them in front.
Equal distances count separately, and what is not a number ranks last.
-/

import PointPattern.Scalar

namespace PointPattern

variable {K : Type} [Scalar K]

/-- Puts a distance into a list that descends. -/
@[specialize] def insertDescending (x : K) : List K → List K
  | [] => [x]
  | y :: ys => if Scalar.before x y then y :: insertDescending x ys else x :: y :: ys

/-- Gives up the largest distance of a descending list for a smaller one. -/
@[specialize] def replaceLargest (kept : List K) (x : K) : List K :=
  match kept with
  | [] => []
  | y :: ys => if Scalar.before x y then insertDescending x ys else y :: ys

/-- The smallest distances of a list, as many as the rank says, in descending
order. -/
@[specialize] def smallest (rank : Nat) (xs : List K) : List K :=
  (xs.drop rank).foldl replaceLargest
    ((xs.take rank).foldl (fun kept x => insertDescending x kept) [])

/-- The distance of the given rank, counted from one. There is none if the list
is shorter than the rank. -/
@[specialize] def kthSmallest? (rank : Nat) (xs : List K) : Option K :=
  if rank ≤ xs.length then (smallest rank xs).head? else none

end PointPattern
