/-
# Rows that are chosen are distinct

Shuffling only exchanges places, so that it gives what it was given in another order. Collecting
puts down a row that was not taken before, or else the newest candidate, which is above all rows
that are there. A choice therefore has as many rows as were asked for, and no row twice; a choice
of all rows is an arrangement of them.
-/

import PointPattern.Proofs.Random.Range
import Mathlib.Data.List.Perm.Subperm

namespace PointPattern.Random

namespace Stream

/-! ## Shuffling -/

/-- An exchange of two places rearranges the entries. -/
theorem perm_swapIfInBounds (rows : Array ℕ) (i j : ℕ) : (rows.swapIfInBounds i j).Perm rows := by
  rw [Array.swapIfInBounds_def]
  split
  · split
    · exact Array.swap_perm _ _
    · exact .refl _
  · exact .refl _

/-- A shuffle rearranges the entries. -/
theorem perm_shuffleFrom (count place : ℕ) (rows : Array ℕ) (s : Stream) :
    (shuffleFrom count place rows s).1.Perm rows := by
  induction count generalizing place rows s with
  | zero => exact .refl _
  | succ count ih =>
      cases place with
      | zero => exact .refl _
      | succ place => exact (ih _ _ _).trans (perm_swapIfInBounds rows _ _)

/-! ## Collecting -/

/-- Rows that have been collected: all of them below the next candidate and no row twice. The
marks are at the rows that are there. -/
structure Collected (n candidate : ℕ) (taken : Array Bool) (rows : Array ℕ) : Prop where
  size : taken.size = n
  below : ∀ row ∈ rows, row < candidate
  distinct : rows.toList.Nodup
  marked : ∀ row < n, taken.getD row false = true ↔ row ∈ rows

theorem collected_nil (n candidate : ℕ) : Collected n candidate (Array.replicate n false) #[] where
  size := Array.size_replicate
  below := by simp
  distinct := List.nodup_nil
  marked row inside := by simp [inside]

/-- One more row is a new one, whether it was drawn or stands in for a row that was. -/
theorem Collected.push {n candidate : ℕ} {taken : Array Bool} {rows : Array ℕ}
    (collected : Collected n candidate taken rows) (inside : candidate < n) {drawn : ℕ}
    (drawn_le : drawn ≤ candidate) :
    let row := if taken.getD drawn false then candidate else drawn
    Collected n (candidate + 1) (taken.setIfInBounds row true) (rows.push row) := by
  intro row
  have row_le : row ≤ candidate := by
    show (if _ then _ else _) ≤ _
    split <;> omega
  have new : row ∉ rows := by
    show (if _ then _ else _) ∉ _
    split
    · exact fun mem => (collected.below candidate mem).false
    · next unmarked => exact mt (collected.marked drawn (by omega)).2 unmarked
  refine ⟨by rw [Array.size_setIfInBounds, collected.size], fun row' mem => ?_, ?_, ?_⟩
  · rcases Array.mem_push.1 mem with old | rfl
    · exact Nat.lt_succ_of_lt (collected.below row' old)
    · omega
  · rw [Array.toList_push, List.nodup_append]
    refine ⟨collected.distinct, List.pairwise_singleton _ row, fun a a_mem b b_mem same => ?_⟩
    rw [List.mem_singleton.1 b_mem] at same
    exact new (Array.mem_toList_iff.1 (same ▸ a_mem))
  · intro row' row'_lt
    have filled : row < taken.size := by rw [collected.size]; omega
    by_cases same : row' = row
    · subst same
      simp [filled]
    · have old := collected.marked row' row'_lt
      rw [Array.getD_eq_getD_getElem?] at old ⊢
      rw [Array.getElem?_setIfInBounds_ne (Ne.symm same), old, Array.mem_push]
      exact (or_iff_left same).symm

/-- Collecting goes on to rows that have been collected. -/
theorem collected_collect {n candidate count : ℕ} {taken : Array Bool} {rows : Array ℕ} {s : Stream}
    (enough : candidate + count ≤ n) (keeps : s.KeepsWord)
    (collected : Collected n candidate taken rows) :
    (collect candidate count taken rows s).1.toList.Nodup ∧
      (collect candidate count taken rows s).1.size = rows.size + count := by
  induction count generalizing candidate taken rows s with
  | zero => exact ⟨collected.distinct, rfl⟩
  | succ count ih =>
      obtain ⟨drawn_le, keeps'⟩ := bounded_spec candidate keeps
      rw [collect]
      generalize s.bounded candidate = drawn at drawn_le keeps' ⊢
      have next := collected.push (by omega) drawn_le
      obtain ⟨distinct, size⟩ := ih (by omega) keeps' next
      refine ⟨distinct, size.trans ?_⟩
      rw [Array.size_push]
      omega

/-! ## Choices -/

/-- A choice has no row twice and as many rows as were asked for. -/
theorem choose_distinct {n k : ℕ} {s : Stream} (enough : k ≤ n) (keeps : s.KeepsWord) :
    (s.choose n k).1.Nodup ∧ (s.choose n k).1.length = k := by
  rw [choose]
  split
  · have shuffled := (perm_shuffleFrom (n - max (n - k) 1) n (Array.range n) s).toList
    rw [Array.toList_range] at shuffled
    rw [chooseByShuffle]
    dsimp only
    constructor
    · exact (shuffled.nodup_iff.2 List.nodup_range).sublist (List.drop_sublist _ _)
    · rw [List.length_drop, shuffled.length_eq, List.length_range]
      omega
  · have collected := collected_collect (by omega : n - k + k ≤ n) keeps (collected_nil n (n - k))
    rw [chooseByCollecting]
    generalize collect (n - k) k (Array.replicate n false) #[] s = gathered at collected ⊢
    obtain ⟨rows, s'⟩ := gathered
    have shuffled := (perm_shuffleFrom (k - 1) k rows s').toList
    refine ⟨shuffled.nodup_iff.2 collected.1, shuffled.length_eq.trans ?_⟩
    simpa using collected.2

/-- A choice of all rows is an arrangement of them. -/
theorem perm_choose_all (n : ℕ) {s : Stream} (keeps : s.KeepsWord) :
    (s.choose n n).1.Perm (List.range n) := by
  obtain ⟨distinct, length⟩ := choose_distinct le_rfl keeps
  have below : (s.choose n n).1 ⊆ List.range n :=
    fun row mem => List.mem_range.2 (choose_lt le_rfl keeps mem)
  refine (distinct.subperm below).perm_of_length_le ?_
  rw [List.length_range, length]

end Stream

end PointPattern.Random
