/-
# Chunks of the repetitions

The repetitions are cut into contiguous pieces, of which the first ones are one longer
than the others where the division leaves a rest. Laid end to end the pieces are all
repetitions in order, so every repetition belongs to exactly one piece, whatever the
number of pieces is.
-/

import PointPattern.Trials
import Mathlib.Order.Monotone.Basic
import Mathlib.Order.Lattice

namespace PointPattern

/-- The first number that belongs to a piece. -/
def chunkStart (count pieces i : ℕ) : ℕ := i * (count / pieces) + min i (count % pieces)

/-- How many numbers belong to a piece. -/
def chunkSize (count pieces i : ℕ) : ℕ := count / pieces + if i < count % pieces then 1 else 0

theorem chunkStart_succ (count pieces i : ℕ) :
    chunkStart count pieces (i + 1) = chunkStart count pieces i + chunkSize count pieces i := by
  rw [chunkStart, chunkStart, chunkSize, Nat.succ_mul]
  split <;> omega

theorem chunkStart_pieces {count pieces : ℕ} (some_pieces : 0 < pieces) :
    chunkStart count pieces pieces = count := by
  have rest_lt : count % pieces < pieces := Nat.mod_lt count some_pieces
  rw [chunkStart, Nat.min_eq_right (Nat.le_of_lt rest_lt)]
  exact Nat.div_add_mod count pieces

theorem chunk_eq_range' (count pieces i : ℕ) :
    chunk count pieces i =
      List.range' (chunkStart count pieces i) (chunkSize count pieces i) := by
  rw [List.range'_eq_map_range]
  rfl

theorem length_chunk (count pieces i : ℕ) :
    (chunk count pieces i).length = chunkSize count pieces i := by
  rw [chunk_eq_range', List.length_range']

/-- Every piece but the first is no longer than the pieces before it together. -/
theorem chunkSize_le_chunkStart (count pieces : ℕ) {i : ℕ} (later : 0 < i) :
    chunkSize count pieces i ≤ chunkStart count pieces i := by
  have quotient_le : count / pieces ≤ i * (count / pieces) := Nat.le_mul_of_pos_left _ later
  rw [chunkSize, chunkStart]
  split <;> omega

theorem mem_chunk_iff {count pieces i j : ℕ} :
    j ∈ chunk count pieces i ↔
      chunkStart count pieces i ≤ j ∧ j < chunkStart count pieces (i + 1) := by
  rw [chunk_eq_range', List.mem_range'_1, chunkStart_succ]

theorem nodup_chunk (count pieces i : ℕ) : (chunk count pieces i).Nodup := by
  rw [chunk_eq_range']
  exact List.nodup_range'

theorem chunkStart_mono (count pieces : ℕ) : Monotone (chunkStart count pieces) := by
  apply monotone_nat_of_le_succ
  intro i
  rw [chunkStart_succ]
  exact Nat.le_add_right _ _

/-- No number belongs to two pieces. -/
theorem eq_of_mem_chunk {count pieces i i' j : ℕ} (mem : j ∈ chunk count pieces i)
    (mem' : j ∈ chunk count pieces i') : i = i' := by
  rw [mem_chunk_iff] at mem mem'
  rcases Nat.lt_trichotomy i i' with before | same | after
  · have := chunkStart_mono count pieces (show i + 1 ≤ i' from before)
    omega
  · exact same
  · have := chunkStart_mono count pieces (show i' + 1 ≤ i from after)
    omega

/-- The first pieces together are the first numbers in order. -/
theorem flatMap_chunk (count pieces i : ℕ) :
    (List.range i).flatMap (chunk count pieces) = List.range (chunkStart count pieces i) := by
  induction i with
  | zero => simp [chunkStart]
  | succ i ih =>
      rw [List.range_succ, List.flatMap_append, ih, List.flatMap_singleton, chunk_eq_range',
        chunkStart_succ, List.range_eq_range', List.range_eq_range', ← List.range'_append_1,
        Nat.zero_add]

/-- The pieces laid end to end are all numbers in order. -/
theorem flatten_chunks {count pieces : ℕ} (some_pieces : 0 < pieces) :
    (chunks count pieces).flatten = List.range count := by
  rw [chunks, ← List.flatMap_def, flatMap_chunk, chunkStart_pieces some_pieces]

/-- Every number below the count belongs to some piece. -/
theorem exists_mem_chunk {count pieces j : ℕ} (some_pieces : 0 < pieces) (inside : j < count) :
    ∃ i < pieces, j ∈ chunk count pieces i := by
  have mem : j ∈ (chunks count pieces).flatten := by
    rw [flatten_chunks some_pieces]
    exact List.mem_range.2 inside
  obtain ⟨piece, piece_mem, j_mem⟩ := List.mem_flatten.1 mem
  obtain ⟨i, i_mem, rfl⟩ := List.mem_map.1 piece_mem
  exact ⟨i, List.mem_range.1 i_mem, j_mem⟩

theorem lt_of_mem_chunk {count pieces i j : ℕ} (inside : i < pieces)
    (mem : j ∈ chunk count pieces i) : j < count := by
  have below := (mem_chunk_iff.1 mem).2
  have bound := chunkStart_mono count pieces (show i + 1 ≤ pieces from inside)
  rw [chunkStart_pieces (by omega)] at bound
  omega

/-! ## The number of workers -/

/-- A single worker takes every turn. -/
theorem turnsInOrder_one (count : ℕ) : turnsInOrder count 1 = List.replicate count 0 := by
  have all : (chunk count 1 0).length = count := by
    simp [length_chunk, chunkSize, Nat.mod_one]
  simp [turnsInOrder, all]

/-- A request for one worker is met with one worker. -/
theorem resolveJobs_one {repetitions : ℤ} (some_repetitions : 1 ≤ repetitions)
    (processors : Option ℕ) : resolveJobs 1 repetitions processors = 1 := by
  simp only [resolveJobs]
  split <;> omega

/-- There is a worker whatever was asked for. -/
theorem toNat_resolveJobs_pos (jobs repetitions : ℤ) (processors : Option ℕ) :
    0 < (resolveJobs jobs repetitions processors).toNat := by
  have one_le : 1 ≤ resolveJobs jobs repetitions processors := le_max_left _ _
  omega

end PointPattern
