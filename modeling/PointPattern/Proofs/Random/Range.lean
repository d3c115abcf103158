/-
# Rows that are chosen exist

The stream never keeps more than a word of thirty-two bits, so that a bounded number obeys
its bound. Collecting puts down numbers below the count of rows only, and shuffling moves
them about. A choice of rows therefore names rows that exist, on any stream that a seed
starts.
-/

import PointPattern.Random.Choice
import Mathlib.Algebra.Order.Ring.Nat
import Mathlib.Data.Int.Notation
import Mathlib.Data.Nat.Notation

namespace PointPattern.Random

namespace Stream

/-- The half that is kept of an output is a word. -/
def KeepsWord (s : Stream) : Prop := ∀ high ∈ s.kept, high < 2 ^ 32

/-! ## Words -/

theorem state_advance_lt (s : Stream) : s.advance.state < 2 ^ 128 :=
  Nat.mod_lt _ (Nat.two_pow_pos 128)

theorem keepsWord_ofSeed (seed : Seed) : (ofSeed seed).KeepsWord := by
  intro high kept
  rw [ofSeed] at kept
  split at kept
  · cases kept
  · cases kept

/-- A rotated word is a word. -/
theorem rotate_lt {bits width turn : ℕ} (word : bits < 2 ^ width) (turn_le : turn ≤ width) :
    bits / 2 ^ turn + bits % 2 ^ turn * 2 ^ (width - turn) < 2 ^ width := by
  have split_width : 2 ^ turn * 2 ^ (width - turn) = 2 ^ width := by
    rw [← Nat.pow_add, Nat.add_sub_cancel' turn_le]
  have high : bits / 2 ^ turn < 2 ^ (width - turn) :=
    Nat.div_lt_of_lt_mul (split_width.symm ▸ word)
  have low : bits % 2 ^ turn + 1 ≤ 2 ^ turn := Nat.mod_lt bits (Nat.two_pow_pos turn)
  calc bits / 2 ^ turn + bits % 2 ^ turn * 2 ^ (width - turn)
      < 2 ^ (width - turn) + bits % 2 ^ turn * 2 ^ (width - turn) := Nat.add_lt_add_right high _
    _ = (bits % 2 ^ turn + 1) * 2 ^ (width - turn) := by rw [Nat.succ_mul, Nat.add_comm]
    _ ≤ 2 ^ turn * 2 ^ (width - turn) := Nat.mul_le_mul_right _ low
    _ = 2 ^ width := split_width

theorem next64_lt (s : Stream) : s.next64.1 < 2 ^ 64 := by
  have bound := state_advance_lt s
  have high : s.advance.state / 2 ^ 64 < 2 ^ 64 := by
    rw [Nat.div_lt_iff_lt_mul (Nat.two_pow_pos 64), ← Nat.pow_add]
    exact bound
  have low : s.advance.state % 2 ^ 64 < 2 ^ 64 := Nat.mod_lt _ (Nat.two_pow_pos 64)
  have turn : s.advance.state / 2 ^ 122 < 2 ^ 6 := by
    rw [Nat.div_lt_iff_lt_mul (Nat.two_pow_pos 122), ← Nat.pow_add]
    exact bound
  exact rotate_lt (Nat.xor_lt_two_pow high low) (Nat.le_of_lt turn)

theorem next32_spec {s : Stream} (keeps : s.KeepsWord) :
    s.next32.1 < 2 ^ 32 ∧ s.next32.2.KeepsWord := by
  rw [next32]
  split
  · next high kept =>
      refine ⟨keeps high kept, ?_⟩
      intro high' kept'
      cases kept'
  · next nothing =>
      refine ⟨Nat.mod_lt _ (Nat.two_pow_pos 32), ?_⟩
      intro high kept
      cases kept
      show s.next64.1 / 2 ^ 32 < 2 ^ 32
      rw [Nat.div_lt_iff_lt_mul (Nat.two_pow_pos 32), ← Nat.pow_add]
      exact next64_lt s

/-! ## Bounded numbers -/

theorem drawAbove_spec {count : ℕ} (some_count : 0 < count) (threshold fuel : ℕ) {s : Stream}
    (keeps : s.KeepsWord) :
    (drawAbove count threshold fuel s).1 < 2 ^ 32 * count ∧
      (drawAbove count threshold fuel s).2.KeepsWord := by
  induction fuel generalizing s with
  | zero =>
      have word := next32_spec keeps
      exact ⟨Nat.mul_lt_mul_of_pos_right word.1 some_count, word.2⟩
  | succ fuel ih =>
      have word := next32_spec keeps
      rw [drawAbove]
      dsimp only
      split
      · exact ih word.2
      · exact ⟨Nat.mul_lt_mul_of_pos_right word.1 some_count, word.2⟩

theorem bounded_spec (bound : ℕ) {s : Stream} (keeps : s.KeepsWord) :
    (s.bounded bound).1 ≤ bound ∧ (s.bounded bound).2.KeepsWord := by
  rw [bounded]
  split
  · exact ⟨Nat.zero_le bound, keeps⟩
  · have drawn := drawAbove_spec (Nat.succ_pos bound) ((Nat.pow 2 32 - (bound + 1)) % (bound + 1))
      1000 keeps
    exact ⟨Nat.le_of_lt_succ (Nat.div_lt_of_lt_mul drawn.1), drawn.2⟩

/-! ## Choices -/

/-- An exchange of two places brings no new entries. -/
theorem mem_swapIfInBounds {rows : Array ℕ} {i j row : ℕ}
    (mem : row ∈ rows.swapIfInBounds i j) : row ∈ rows := by
  rw [Array.swapIfInBounds_def] at mem
  split at mem
  · split at mem
    · exact (Array.swap_perm _ _).mem_iff.1 mem
    · exact mem
  · exact mem

/-- A shuffle brings no new entries. -/
theorem mem_shuffleFrom {count place row : ℕ} {rows : Array ℕ} {s : Stream}
    (mem : row ∈ (shuffleFrom count place rows s).1) : row ∈ rows := by
  induction count generalizing place rows s with
  | zero => exact mem
  | succ count ih =>
      cases place with
      | zero => exact mem
      | succ place => exact mem_swapIfInBounds (ih mem)

/-- Collecting takes numbers below the candidate that comes last. -/
theorem collect_lt {n candidate count row : ℕ} {taken : Array Bool} {rows : Array ℕ} {s : Stream}
    (enough : candidate + count ≤ n) (keeps : s.KeepsWord) (below : ∀ row ∈ rows, row < n)
    (mem : row ∈ (collect candidate count taken rows s).1) : row < n := by
  induction count generalizing candidate taken rows s with
  | zero => exact below row mem
  | succ count ih =>
      obtain ⟨drawn_le, keeps'⟩ := bounded_spec candidate keeps
      rw [collect] at mem
      generalize s.bounded candidate = drawn at drawn_le keeps' mem
      refine ih (by omega) keeps' ?_ mem
      intro row' mem'
      rcases Array.mem_push.1 mem' with old | new
      · exact below row' old
      · rw [new]
        split
        · omega
        · omega

/-- The rows of a choice exist. -/
theorem choose_lt {n k row : ℕ} {s : Stream} (enough : k ≤ n) (keeps : s.KeepsWord)
    (mem : row ∈ (s.choose n k).1) : row < n := by
  rw [choose] at mem
  split at mem
  · have mem_shuffled := List.mem_of_mem_drop mem
    exact Array.mem_range.1 (mem_shuffleFrom (Array.mem_toList_iff.1 mem_shuffled))
  · have mem_collected := mem_shuffleFrom (Array.mem_toList_iff.1 mem)
    refine collect_lt (by omega) keeps ?_ mem_collected
    intro row' mem'
    cases mem' with
    | mk mem' => cases mem'

end Stream

/-- A source that draws from a stream gives the rows that the stream chooses. -/
theorem streamSource_choose_eq {K : Type} [Div K] [Scalar K] {n size : ℕ} (enough : size ≤ n)
    (s : Stream) :
    (streamSource K).choose n size s =
      (.ok ((s.choose n size).1.map fun (row : ℕ) => (row : ℤ)), (s.choose n size).2) := by
  have fits : ¬(n : ℤ) < size := by omega
  have natural : ¬(size : ℤ) < 0 := by omega
  simp only [streamSource, if_neg fits, if_neg natural, Int.toNat_natCast]

/-- A source that draws from a stream gives rows that exist whenever there are as many as
are asked for. -/
theorem streamSource_choose {K : Type} [Div K] [Scalar K] {n size : ℕ} {s : Stream}
    (enough : size ≤ n) (keeps : s.KeepsWord) :
    ∃ rows : List ℕ, (∀ row ∈ rows, row < n) ∧
      ((streamSource K).choose n size s).1 = .ok (rows.map fun (row : ℕ) => (row : ℤ)) :=
  ⟨(s.choose n size).1, fun _ mem => Stream.choose_lt enough keeps mem,
    congrArg Prod.fst (streamSource_choose_eq enough s)⟩

end PointPattern.Random
