/-
# Tree search answers every query

Without rounding the tree gives a distance to every query of a run: the rank is one of the
corpus, the block of queries has as many coordinates as the corpus, every coordinate is finite,
and the distance of a rank is one of the distances to the corpus, none of which is negative. Of
the roots that distances need it is only assumed that those of numbers that are not negative
are not negative either.
-/

import PointPattern.Proofs.Textbook

namespace PointPattern

/-- Roots and powers of numbers that are not negative are not negative. -/
class Roots.NonNeg (K : Type) [Field K] [LinearOrder K] [Roots K] : Prop where
  sqrt_nonneg : ∀ {x : K}, 0 ≤ x → 0 ≤ Roots.sqrt x
  realPower_nonneg : ∀ {x : K} (y : K), 0 ≤ x → 0 ≤ Roots.realPower x y

instance : Roots.NonNeg ℚ where
  sqrt_nonneg _ := div_nonneg (Nat.cast_nonneg _) (Nat.cast_nonneg _)
  realPower_nonneg _ nonneg := zpow_nonneg nonneg _

/-! ## Selection -/

section Selection

variable {K : Type} [Scalar K]

theorem mem_insertDescending {x y : K} {kept : List K} (mem : y ∈ insertDescending x kept) :
    y = x ∨ y ∈ kept := by
  induction kept with
  | nil => exact List.mem_cons.1 mem
  | cons z rest ih =>
      rw [insertDescending] at mem
      split at mem
      · rcases List.mem_cons.1 mem with rfl | later
        · exact .inr List.mem_cons_self
        · exact (ih later).imp_right (List.mem_cons_of_mem z)
      · exact List.mem_cons.1 mem

theorem mem_replaceLargest {x y : K} {kept : List K} (mem : y ∈ replaceLargest kept x) :
    y = x ∨ y ∈ kept := by
  cases kept with
  | nil => cases mem
  | cons z rest =>
      rw [replaceLargest] at mem
      split at mem
      · exact (mem_insertDescending mem).imp_right (List.mem_cons_of_mem z)
      · exact .inr mem

omit [Scalar K] in
/-- A fold that takes in one number after the other keeps only numbers that it was given. -/
theorem mem_foldl_of_step {step : List K → K → List K}
    (taken : ∀ {kept x y}, y ∈ step kept x → y = x ∨ y ∈ kept) {xs kept : List K} {y : K}
    (mem : y ∈ xs.foldl step kept) : y ∈ xs ∨ y ∈ kept := by
  induction xs generalizing kept with
  | nil => exact .inr mem
  | cons x rest ih =>
      rcases ih mem with later | here
      · exact .inl (List.mem_cons_of_mem x later)
      · rcases taken here with rfl | old
        · exact .inl List.mem_cons_self
        · exact .inr old

/-- The distance of a rank is one of the distances. -/
theorem mem_of_kthSmallest {rank : ℕ} {xs : List K} {x : K}
    (selected : kthSmallest? rank xs = some x) : x ∈ xs := by
  rw [kthSmallest?] at selected
  split at selected
  · have mem : x ∈ smallest rank xs := List.mem_of_mem_head? selected
    rcases mem_foldl_of_step mem_replaceLargest mem with later | kept
    · exact List.mem_of_mem_drop later
    · rcases mem_foldl_of_step mem_insertDescending kept with first | nothing
      · exact List.mem_of_mem_take first
      · cases nothing
  · cases selected

end Selection

/-! ## Distances -/

section Distances

variable {K : Type} [Field K] [LinearOrder K] [IsStrictOrderedRing K] [Scalar K] [Scalar.Exact K]

omit [Field K] [LinearOrder K] [IsStrictOrderedRing K] [Scalar K] [Scalar.Exact K] in
/-- What every step keeps holds of a fold over pairs of coordinates. -/
theorem foldPairs_induction (holds : K → Prop) {step : K → K → K → K}
    (kept : ∀ acc a b, holds acc → holds (step acc a b)) {acc : K} (start : holds acc)
    (u v : List K) : holds (Metric.foldPairs step acc u v) := by
  induction u generalizing acc v with
  | nil => exact start
  | cons a as ih =>
      cases v with
      | nil => exact start
      | cons b bs => exact ih (kept acc a b start) bs

omit [IsStrictOrderedRing K] [Scalar.Exact K] in
theorem widen_nonneg {acc gap : K} (acc_nonneg : 0 ≤ acc) (gap_nonneg : 0 ≤ gap) :
    0 ≤ Metric.widen acc gap := by
  rw [Metric.widen]
  split
  · exact gap_nonneg
  · exact acc_nonneg

variable [Roots K] [Roots.NonNeg K]

/-- Minkowski distances are not negative. -/
theorem minkowskiDistance_nonneg (order : Float) (u v : List K) :
    0 ≤ Metric.minkowskiDistance order u v := by
  have start : (0 : K) ≤ Scalar.zero := by rw [Scalar.zero_eq]
  rw [Metric.minkowskiDistance]
  split_ifs
  · apply Roots.NonNeg.sqrt_nonneg
    exact foldPairs_induction (0 ≤ ·)
      (fun _ _ _ nonneg => add_nonneg nonneg (mul_self_nonneg _)) start u v
  · refine foldPairs_induction (0 ≤ ·) (fun _ _ _ nonneg => ?_) start u v
    exact add_nonneg nonneg (by simp)
  · refine foldPairs_induction (0 ≤ ·) (fun _ _ _ nonneg => ?_) start u v
    exact widen_nonneg nonneg (by simp)
  · apply Roots.NonNeg.realPower_nonneg
    refine foldPairs_induction (0 ≤ ·) (fun _ _ _ nonneg => ?_) start u v
    exact add_nonneg nonneg (Roots.NonNeg.realPower_nonneg _ (by simp))

omit [IsStrictOrderedRing K] [Roots K] [Roots.NonNeg K] in
theorem rankedDistance_nonneg {measure : List K → List K → K} (nonneg : ∀ u v, 0 ≤ measure u v)
    (corpus : List (List K)) (rank : ℕ) (query : List K) :
    0 ≤ Oracle.rankedDistance measure corpus rank query := by
  rw [Oracle.rankedDistance]
  cases selected : kthSmallest? rank (corpus.map (measure query)) with
  | none => rw [Option.getD_none, Scalar.zero_eq]
  | some x =>
      obtain ⟨point, -, rfl⟩ := List.mem_map.1 (mem_of_kthSmallest selected)
      exact nonneg query point

/-! ## Queries -/

omit [Field K] [LinearOrder K] [IsStrictOrderedRing K] [Scalar K] [Scalar.Exact K] [Roots K]
  [Roots.NonNeg K] in
theorem checkRank_of_le {rank : ℤ} {size : ℕ} (rank_pos : 1 ≤ rank) (rank_le : rank ≤ size) :
    Oracle.checkRank rank size = .ok rank.toNat := by
  rw [Oracle.checkRank, if_neg (not_lt.2 rank_pos), if_neg (not_lt.2 rank_le)]

omit [IsStrictOrderedRing K] [Roots K] [Roots.NonNeg K] in
/-- Without rounding every point set is finite. -/
theorem Backend.checkCorpus_ok (points : PointSet K) : Backend.checkCorpus points = .ok () :=
  if_pos (by simp [HasInfinities.isFinite])

omit [IsStrictOrderedRing K] [Roots.NonNeg K] in
/-- So the oracle of a metric is built. -/
theorem Backend.oracle_processor {σ : Type} (metric : Value) (settings : List (String × Value))
    (points : PointSet K) :
    (Backend.processor metric settings : Backend σ K).oracle points =
      Oracle.ofMetric points metric settings := by
  rw [Backend.oracle, Backend.checkCorpus_ok]
  rfl

/-- The tree answers every query of a run with distances. -/
theorem answers_tree {σ : Type} (points : PointSet K) {order : Float} (norm : ¬order < 1) :
    (Oracle.tree points order : Oracle σ K).Answers points.size points.dim where
  single single := by cases single
  block _ g count rank s shaped rank_pos rank_le := by
    have within := checkRank_of_le rank_pos rank_le
    let block := Grid.cut count points.dim g.values
    have queried : Oracle.queries g points.dim = .ok block := by
      simp only [Oracle.queries, Oracle.asBlock, shaped, if_pos, block]
    have finite : (block.all fun query => query.all Scalar.isFinite) = true := by simp
    refine ⟨block.map (Oracle.rankedDistance (Metric.minkowskiDistance order) points.points
      rank.toNat), ?_, ?_⟩
    · show Oracle.treeAnswer points order g rank = _
      rw [Oracle.treeAnswer, within, queried]
      simp only [Bind.bind, Except.bind, if_neg norm, finite, Bool.not_true, Bool.false_eq_true,
        if_false, Oracle.rankedDistances, block, Grid.length_cut]
      rfl
    · intro x mem
      obtain ⟨query, -, rfl⟩ := List.mem_map.1 mem
      exact isDistance_iff.2 (rankedDistance_nonneg (minkowskiDistance_nonneg order) points.points
        rank.toNat query)

end Distances

end PointPattern
