/-
# The distance of a rank stands at its place in the order

Selection keeps as many of the distances as the rank says, in descending order, and what it gives
up is nowhere smaller than what it keeps. So the kept distances, turned around, are the first ones
of all distances in order, and the largest of them stands at the place of the rank. Without rounding
only equal distances are tied: the distance of a rank depends on the distances alone, and not on how
they are arranged.
-/

import PointPattern.Proofs.Exact
import PointPattern.Proofs.Ranking
import Mathlib.Data.List.Sort

namespace PointPattern

variable {K : Type} [Field K] [LinearOrder K] [Scalar K] [Scalar.Exact K]

theorem Scalar.before_iff (x y : K) : Scalar.before x y = true ↔ x < y := by
  simp [Scalar.before]

theorem Scalar.not_before_iff (x y : K) : Scalar.before x y = false ↔ y ≤ x := by
  rw [← Bool.not_eq_true, Scalar.before_iff, not_lt]

instance : Scalar.Ranks K where
  asymm x y first := (Scalar.not_before_iff y x).2 ((Scalar.before_iff x y).1 first).le
  splits x y z first := by
    rw [Scalar.before_iff] at first ⊢
    rw [Scalar.before_iff]
    exact (lt_or_ge x y).imp_right first.trans_le'

/-- Only equal numbers are tied. -/
theorem Scalar.tied_iff (x y : K) : Scalar.Tied x y ↔ x = y := by
  constructor
  · rintro ⟨not_before, not_after⟩
    exact le_antisymm ((not_before_iff y x).1 not_after) ((not_before_iff x y).1 not_before)
  · rintro rfl
    exact .refl x

/-! ## All distances -/

/-- Numbers that are kept of a list, in descending order, and numbers that are given up. -/
structure IsSelection (kept rest xs : List K) : Prop where
  descends : kept.Pairwise (· ≥ ·)
  smallest : ∀ y ∈ kept, ∀ z ∈ rest, y ≤ z
  all : (kept ++ rest).Perm xs

/-- The smallest numbers of a list are kept, as many as the rank says. -/
theorem exists_isSelection_smallest {rank : ℕ} {xs : List K} (rank_le : rank ≤ xs.length) :
    ∃ rest, IsSelection (smallest rank xs) rest xs ∧ (smallest rank xs).length = rank := by
  obtain ⟨rest, selects, length⟩ := exists_selects_smallest rank_le
  refine ⟨rest, ⟨selects.descends.imp ?_, fun y y_mem z z_mem => ?_, selects.all⟩, length⟩
  · intro y z not_before
    exact (Scalar.not_before_iff y z).1 not_before
  · exact (Scalar.not_before_iff z y).1 (selects.smallest y y_mem z z_mem)

omit [Field K] [Scalar K] [Scalar.Exact K] in
/-- The kept numbers, turned around, come first when all are put in order. -/
theorem IsSelection.insertionSort_eq {kept rest xs : List K}
    (selection : IsSelection kept rest xs) :
    xs.insertionSort (· ≤ ·) = kept.reverse ++ rest.insertionSort (· ≤ ·) := by
  have ordered : (kept.reverse ++ rest.insertionSort (· ≤ ·)).Pairwise (· ≤ ·) := by
    refine List.pairwise_append.2 ⟨List.pairwise_reverse.2 selection.descends,
      List.pairwise_insertionSort _ rest, fun y y_mem z z_mem => ?_⟩
    exact selection.smallest y (List.mem_reverse.1 y_mem) z
      ((List.mem_insertionSort _).1 z_mem)
  have same : (xs.insertionSort (· ≤ ·)).Perm (kept.reverse ++ rest.insertionSort (· ≤ ·)) := by
    have parts := (List.reverse_perm kept).append (List.perm_insertionSort (· ≤ ·) rest)
    exact ((List.perm_insertionSort _ xs).trans selection.all.symm).trans parts.symm
  exact same.eq_of_pairwise' (List.pairwise_insertionSort _ xs) ordered

/-- The distance of a rank, counted from one, is the one at its place in the order. -/
theorem kthSmallest?_eq_getElem? {rank : ℕ} (rank_pos : 1 ≤ rank) (xs : List K) :
    kthSmallest? rank xs = (xs.insertionSort (· ≤ ·))[rank - 1]? := by
  rw [kthSmallest?]
  split
  · next rank_le =>
      obtain ⟨rest, selection, length⟩ := exists_isSelection_smallest rank_le
      have inside : rank - 1 < (smallest rank xs).length := by omega
      have place : (smallest rank xs).length - 1 - (rank - 1) = 0 := by omega
      rw [selection.insertionSort_eq, List.getElem?_append_left (by rwa [List.length_reverse]),
        List.getElem?_reverse inside, place, List.head?_eq_getElem?]
  · next beyond =>
      refine (List.getElem?_eq_none ?_).symm
      rw [List.length_insertionSort]
      omega

/-- It does not depend on how the distances are arranged. -/
theorem kthSmallest?_perm {rank : ℕ} (rank_pos : 1 ≤ rank) {xs ys : List K} (perm : xs.Perm ys) :
    kthSmallest? rank xs = kthSmallest? rank ys := by
  have sorted := perm.trans (List.perm_insertionSort (· ≤ ·) ys).symm
  have same : xs.insertionSort (· ≤ ·) = ys.insertionSort (· ≤ ·) :=
    ((List.perm_insertionSort _ xs).trans sorted).eq_of_pairwise'
      (List.pairwise_insertionSort _ xs) (List.pairwise_insertionSort _ ys)
  rw [kthSmallest?_eq_getElem? rank_pos, kthSmallest?_eq_getElem? rank_pos, same]

end PointPattern
