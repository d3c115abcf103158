/-
# Running means in doubles

A mean of shares is a share, whether the shares come one by one or in several
accumulators that are merged. Merging needs that the accumulator merged into holds at
least as many numbers as the other one: then the larger count absorbs the rounding of the
product. The chunks of the repetitions come in an order in which this is so.
-/

import PointPattern.Proofs.Double.Shares
import PointPattern.Proofs.Tallies

namespace PointPattern

open Double

/-! ## Counts as doubles -/

section Counts

variable {n n' : ℕ}

theorem real_ofNat_eq (finite : (Float.ofNat n).isFinite = true) :
    real (.ofNat n) = nearest n := (isNearest_ofNat n).real_eq finite

/-- A smaller count is finite if a larger one is. -/
theorem isFinite_ofNat_of_le (le : n ≤ n') (finite : (Float.ofNat n').isFinite = true) :
    (Float.ofNat n).isFinite = true := by
  have larger : nearest n ≤ nearest n' := nearest_mono (by exact_mod_cast le)
  have nonneg : 0 ≤ nearest n := nearest_nonneg (Nat.cast_nonneg n)
  have range := (fits_real (.ofNat n')).range
  rw [real_ofNat_eq finite, abs_of_nonneg (nonneg.trans larger)] at range
  refine ((isNearest_ofNat n).of_range ?_).1
  rw [abs_of_nonneg nonneg]
  exact larger.trans_lt range

theorem le_real_ofNat {small : ℕ} (bits : small < 2 ^ 53) (le : small ≤ n)
    (finite : (Float.ofNat n).isFinite = true) : small ≤ real (.ofNat n) := by
  have := nearest_mono (show (small : ℚ) ≤ n by exact_mod_cast le)
  rw [nearest_of_hasBits (fits_natCast bits).bits] at this
  rwa [real_ofNat_eq finite]

/-- Twice a count stays below a count that is twice as large, also after rounding. -/
theorem two_mul_real_ofNat_le (some_number : 1 ≤ n) (le : 2 * n ≤ n')
    (finite : (Float.ofNat n').isFinite = true) :
    2 * real (.ofNat n) ≤ real (.ofNat n') := by
  have one_le : (1 : ℚ) ≤ n := by exact_mod_cast some_number
  rw [real_ofNat_eq finite, real_ofNat_eq (isFinite_ofNat_of_le (by omega) finite),
    ← nearest_two_mul one_le]
  exact nearest_mono (by exact_mod_cast le)

theorem nonNeg_ofNat (n : ℕ) : NonNeg (.ofNat n) :=
  (isNearest_ofNat n).nonNeg (Nat.cast_nonneg n)

end Counts

/-! ## Updates -/

namespace Moments

theorem mean_push {K : Type} [Add K] [Sub K] [Mul K] [Div K] [Scalar K] (m : Moments K) (x : K) :
    (m.push x).mean = m.mean + (x - m.mean) / Scalar.ofNat (m.count + 1) := rfl

theorem mean_merge {K : Type} [Add K] [Sub K] [Mul K] [Div K] [Scalar K] {m other : Moments K}
    (some_new : other.count ≠ 0) (some_old : m.count ≠ 0) :
    (m.merge other).mean =
      m.mean + (other.mean - m.mean) * Scalar.ofNat other.count /
        Scalar.ofNat (m.count + other.count) := by
  rw [merge, if_neg some_new, if_neg some_old]

end Moments

/-- The part of a number that a divisor from one on leaves. -/
theorem between_div {a c : ℚ} (one_le : 1 ≤ c) :
    a ≤ 0 ∧ a ≤ a / c ∧ a / c ≤ 0 ∨ 0 ≤ a ∧ 0 ≤ a / c ∧ a / c ≤ a := by
  have c_pos : 0 < c := by linarith
  rcases le_total a 0 with neg | pos
  · refine .inl ⟨neg, ?_, div_nonpos_of_nonpos_of_nonneg neg c_pos.le⟩
    rw [le_div_iff₀ c_pos]
    nlinarith
  · exact .inr ⟨pos, div_nonneg pos c_pos.le, div_le_self pos one_le⟩

/-- A share moves a mean of shares to a share. -/
theorem IsShare.push {m : Moments Float} {x : Float} (mean : IsShare m.mean)
    (vacant : m.count = 0 → real m.mean = 0) (share : IsShare x) :
    IsShare (m.push x).mean := by
  have offset := mean.isOffset share
  rw [Moments.mean_push]
  generalize x - m.mean = d at offset
  by_cases finite : (Float.ofNat (m.count + 1)).isFinite = true
  · have one_le : 1 ≤ real (.ofNat (m.count + 1)) := by
      have := le_real_ofNat (show 1 < 2 ^ 53 by norm_num) (Nat.le_add_left 1 m.count) finite
      rwa [Nat.cast_one] at this
    have near := isNearest_div offset.finite finite (by linarith)
    apply mean.add offset near (between_div one_le)
    by_cases first : m.count = 0
    · exact .inl (vacant first)
    · have two_le : 2 ≤ real (.ofNat (m.count + 1)) := by
        have := le_real_ofNat (show 2 < 2 ^ 53 by norm_num)
          (show 2 ≤ m.count + 1 by omega) finite
        rwa [Nat.cast_ofNat] at this
      right
      rw [div_le_div_iff₀ (by linarith) (by norm_num)]
      linarith [offset.le_one]
  · have infinite := (nonNeg_ofNat (m.count + 1)).infinite (by simpa using finite)
    obtain ⟨quotient_finite, zero⟩ := real_div_infinity offset.finite infinite
    have near : IsNearest (d / Scalar.ofNat (m.count + 1)) 0 := by
      have := isNearest_self quotient_finite
      rwa [zero] at this
    refine mean.add offset near ?_ (.inr (by norm_num))
    rcases le_total (real d) 0 with neg | pos
    · exact .inl ⟨neg, neg, le_rfl⟩
    · exact .inr ⟨pos, le_rfl, pos⟩

/-- The part of a product that a divisor leaves that is twice the factor: rounding the product
doubles it at most, and never changes its sign. -/
theorem between_nearest_div {a b c : ℚ} (b_pos : 0 < b) (twice : 2 * b ≤ c) :
    a ≤ 0 ∧ a ≤ nearest (a * b) / c ∧ nearest (a * b) / c ≤ 0 ∨
      0 ≤ a ∧ 0 ≤ nearest (a * b) / c ∧ nearest (a * b) / c ≤ a := by
  have c_pos : 0 < c := by linarith
  have doubled : |nearest (a * b)| ≤ |a| * c := by
    calc |nearest (a * b)| ≤ 2 * |a * b| := abs_nearest_le _
      _ = |a| * (2 * b) := by rw [abs_mul, abs_of_pos b_pos]; ring
      _ ≤ |a| * c := mul_le_mul_of_nonneg_left twice (abs_nonneg a)
  rcases le_total a 0 with neg | pos
  · have product_neg : nearest (a * b) ≤ 0 := by
      have := nearest_mono (mul_nonpos_of_nonpos_of_nonneg neg b_pos.le)
      rwa [nearest_zero] at this
    rw [abs_of_nonpos product_neg, abs_of_nonpos neg] at doubled
    refine .inl ⟨neg, ?_, div_nonpos_of_nonpos_of_nonneg product_neg c_pos.le⟩
    rw [le_div_iff₀ c_pos]
    linarith
  · have product_pos : 0 ≤ nearest (a * b) := nearest_nonneg (mul_nonneg pos b_pos.le)
    rw [abs_of_nonneg product_pos, abs_of_nonneg pos] at doubled
    exact .inr ⟨pos, div_nonneg product_pos c_pos.le, (div_le_iff₀ c_pos).2 doubled⟩

/-- Two means of shares are merged to a share if the first is that of more numbers. -/
theorem IsShare.merge {m other : Moments Float} (mean : IsShare m.mean)
    (other_mean : IsShare other.mean) (fewer : other.count ≤ m.count)
    (finite : (Float.ofNat (m.count + other.count)).isFinite = true) :
    IsShare (m.merge other).mean := by
  by_cases none_new : other.count = 0
  · rw [Moments.merge_of_count_eq_zero m none_new]
    exact mean
  · have offset := mean.isOffset other_mean
    rw [Moments.mean_merge none_new (by omega)]
    generalize other.mean - m.mean = d at offset
    have b_finite :=
      isFinite_ofNat_of_le (show other.count ≤ m.count + other.count by omega) finite
    have one_le : 1 ≤ real (.ofNat other.count) := by
      have := le_real_ofNat (show 1 < 2 ^ 53 by norm_num) (show 1 ≤ other.count by omega) b_finite
      rwa [Nat.cast_one] at this
    have twice := two_mul_real_ofNat_le (show 1 ≤ other.count by omega)
      (show 2 * other.count ≤ m.count + other.count by omega) finite
    have fits := fits_real (.ofNat other.count)
    have product := isNearest_mul offset.finite b_finite
    have d_ge : -1 ≤ real d := by linarith [offset.lower, mean.le_one]
    obtain ⟨p_finite, p_ge, p_le⟩ := product.between fits.neg fits
      (by nlinarith) (by nlinarith [offset.le_one])
    have quotient := isNearest_div p_finite finite (by linarith)
    refine mean.add offset quotient ?_ (.inr ?_)
    · rw [product.real_eq p_finite]
      exact between_nearest_div (by linarith) twice
    · rw [div_le_div_iff₀ (by linarith) (by norm_num)]
      linarith

/-! ## What is not a number -/

theorem isNaN_push {m : Moments Float} {x : Float}
    (nan : m.mean.isNaN = true ∨ x.isNaN = true) : (m.push x).mean.isNaN = true := by
  rw [Moments.mean_push]
  exact isNaN_add (.inr (isNaN_div (isNaN_sub nan.symm)))

theorem isNaN_merge {m other : Moments Float} (some_new : other.count ≠ 0)
    (some_old : m.count ≠ 0) (nan : m.mean.isNaN = true ∨ other.mean.isNaN = true) :
    (m.merge other).mean.isNaN = true := by
  rw [Moments.mean_merge some_new some_old]
  exact isNaN_add (.inr (isNaN_div (isNaN_mul (isNaN_sub nan.symm))))

/-! ## Means of lists -/

/-- A mean of a list of numbers, in whatever parts they arrived: shares have a share as their
mean, and one number that is none is enough to spoil it. -/
structure Averages (m : Moments Float) (xs : List Float) : Prop where
  count : m.count = xs.length
  vacant : xs = [] → real m.mean = 0
  share : (∀ x ∈ xs, IsShare x) → IsShare m.mean
  nan : (∃ x ∈ xs, x.isNaN = true) → m.mean.isNaN = true

namespace Averages

variable {m other : Moments Float} {xs ys : List Float}

theorem empty : Averages .empty [] where
  count := rfl
  vacant _ := real_zero.2
  share _ := ⟨real_zero.1, real_zero.2.symm.le, real_zero.2.symm ▸ zero_le_one⟩
  nan := by
    rintro ⟨x, mem, _⟩
    cases mem

theorem push (averages : Averages m xs) (x : Float) : Averages (m.push x) (xs ++ [x]) where
  count := by rw [List.length_append, ← averages.count]; rfl
  vacant nothing := by simp at nothing
  share shares := by
    refine (averages.share fun y mem => shares y (List.mem_append_left _ mem)).push ?_
      (shares x (List.mem_append_right _ List.mem_cons_self))
    intro none_yet
    rw [averages.count] at none_yet
    exact averages.vacant (List.eq_nil_of_length_eq_zero none_yet)
  nan := by
    rintro ⟨y, mem, nan⟩
    rcases List.mem_append.1 mem with old | new
    · exact isNaN_push (.inl (averages.nan ⟨y, old, nan⟩))
    · rw [List.mem_singleton] at new
      exact isNaN_push (.inr (new ▸ nan))

theorem ofList (xs : List Float) : Averages (.ofList xs) xs := by
  induction xs using List.reverseRecOn with
  | nil => exact empty
  | append_singleton xs x ih =>
      rw [Moments.ofList_append_singleton]
      exact ih.push x

/-- Merging keeps a mean if the first accumulator has nothing or no fewer numbers. -/
theorem merge (averages : Averages m xs) (others : Averages other ys)
    (fewer : xs = [] ∨ ys.length ≤ xs.length)
    (finite : (Float.ofNat (xs.length + ys.length)).isFinite = true) :
    Averages (m.merge other) (xs ++ ys) := by
  by_cases none_new : other.count = 0
  · have no_ys : ys = [] := List.eq_nil_of_length_eq_zero (others.count ▸ none_new)
    rw [Moments.merge_of_count_eq_zero m none_new, no_ys, List.append_nil]
    exact averages
  · by_cases none_old : m.count = 0
    · have no_xs : xs = [] := List.eq_nil_of_length_eq_zero (averages.count ▸ none_old)
      rw [Moments.merge, if_neg none_new, if_pos none_old, no_xs, List.nil_append]
      exact others
    · have some_xs : xs ≠ [] := by
        rintro rfl
        exact none_old averages.count
      refine ⟨?_, ?_, ?_, ?_⟩
      · rw [Moments.count_merge, averages.count, others.count, List.length_append]
      · intro nothing
        exact absurd (List.append_eq_nil_iff.1 nothing).1 some_xs
      · intro shares
        have first := averages.share fun x mem => shares x (List.mem_append_left _ mem)
        have second := others.share fun x mem => shares x (List.mem_append_right _ mem)
        apply first.merge second
        · rw [averages.count, others.count]
          exact fewer.resolve_left some_xs
        · rwa [averages.count, others.count]
      · rintro ⟨x, mem, nan⟩
        apply isNaN_merge none_new none_old
        rcases List.mem_append.1 mem with old | new
        · exact .inl (averages.nan ⟨x, old, nan⟩)
        · exact .inr (others.nan ⟨x, new, nan⟩)

end Averages

/-! ## Means of chunks -/

/-- The tallies of the chunks, merged in their order, have the mean of all shares. -/
theorem averages_mergeAll_chunks {count pieces : ℕ} (some_pieces : 0 < pieces)
    (finite : (Float.ofNat count).isFinite = true) (trials : ℕ → Trial Float) :
    Averages (Tally.empty.mergeAll ((chunks count pieces).map (List.map trials))).h
      ((List.range count).map fun j => (trials j).h) := by
  have first_pieces (i : ℕ) (inside : i ≤ pieces) :
      Averages
        (Tally.empty.mergeAll ((List.range i).map fun l => (chunk count pieces l).map trials)).h
        ((List.range (chunkStart count pieces i)).map fun j => (trials j).h) := by
    induction i with
    | zero =>
        rw [chunkStart, Nat.zero_mul, Nat.zero_min]
        exact .empty
    | succ i ih =>
        have so_far := ih (by omega)
        have piece : Averages (Tally.ofList ((chunk count pieces i).map trials)).h
            ((chunk count pieces i).map fun j => (trials j).h) := by
          rw [Tally.ofList_eq, List.map_map]
          exact .ofList _
        have bound := chunkStart_mono count pieces inside
        rw [chunkStart_pieces some_pieces] at bound
        have joined : List.range (chunkStart count pieces (i + 1)) =
            List.range (chunkStart count pieces i) ++ chunk count pieces i := by
          rw [← flatMap_chunk, ← flatMap_chunk, List.range_succ, List.flatMap_append,
            List.flatMap_singleton]
        rw [List.range_succ, List.map_append, Tally.mergeAll, List.foldl_append, joined,
          List.map_append]
        apply so_far.merge piece
        · rw [List.length_map, List.length_map, List.length_range, length_chunk]
          rcases Nat.eq_zero_or_pos i with rfl | later
          · left
            simp [chunkStart]
          · exact .inr (chunkSize_le_chunkStart count pieces later)
        · rw [List.length_map, List.length_map, List.length_range, length_chunk, ← chunkStart_succ]
          exact isFinite_ofNat_of_le bound finite
  have all := first_pieces pieces le_rfl
  rw [chunkStart_pieces some_pieces] at all
  rwa [chunks, List.map_map]

end PointPattern
