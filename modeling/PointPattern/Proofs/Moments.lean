/-
# Moments of lists in exact arithmetic

Without rounding, the moments of a list depend on three numbers alone: its length, its
sum and the sum of its squares. Adding a number changes these three in the obvious way,
and so does merging two accumulators. Merging the moments of two lists therefore gives
the moments of the lists put together, in whatever parts the numbers arrived. What they
give is the arithmetic mean and the sample variance.
-/

import PointPattern.Moments
import PointPattern.Proofs.Exact
import Mathlib.Algebra.BigOperators.Group.List.Basic
import Mathlib.Algebra.Order.BigOperators.Group.List
import Mathlib.Algebra.Order.Ring.Cast
import Mathlib.Data.List.Induction
import Mathlib.Tactic.FieldSimp
import Mathlib.Tactic.Ring

namespace PointPattern

namespace Moments

section Count

variable {K : Type} [Add K] [Sub K] [Mul K] [Div K] [Scalar K]

theorem ofList_append_singleton (xs : List K) (x : K) :
    ofList (xs ++ [x]) = (ofList xs).push x := by
  rw [ofList, List.foldl_append]
  rfl

/-- Counting needs no law of the numbers, so that it holds of doubles as well. -/
theorem count_merge (m other : Moments K) :
    (m.merge other).count = m.count + other.count := by
  rw [merge]
  split_ifs with none_new none_old
  · rw [none_new, Nat.add_zero]
  · rw [none_old, Nat.zero_add]
  · rfl

theorem merge_of_count_eq_zero (m : Moments K) {other : Moments K} (none_new : other.count = 0) :
    m.merge other = m := if_pos none_new

/-- Before anything is known, a merge takes the other accumulator over. -/
theorem empty_merge (m : Moments K) (some_new : m.count ≠ 0) : empty.merge m = m := by
  rw [merge, if_neg some_new]
  rfl

end Count

variable {K : Type} [Field K] [LinearOrder K] [Scalar K] [Scalar.Exact K]

/-- The moments of so many numbers with a given sum and a given sum of squares. -/
def ofSums (count : ℕ) (sum squares : K) : Moments K :=
  ⟨count, sum / count, squares - sum ^ 2 / count⟩

theorem empty_eq_ofSums : (empty : Moments K) = ofSums 0 0 0 := by
  simp [empty, ofSums]

variable [IsStrictOrderedRing K]

theorem push_ofSums {count : ℕ} {sum : K} (squares x : K) (vacant : count = 0 → sum = 0) :
    (ofSums count sum squares).push x = ofSums (count + 1) (sum + x) (squares + x ^ 2) := by
  have next_ne_zero : (count : K) + 1 ≠ 0 := Nat.cast_add_one_ne_zero count
  rcases Nat.eq_zero_or_pos count with rfl | some_old
  · simp [push, ofSums, Scalar.Exact.ofNat_eq, vacant rfl]
  · have count_ne_zero : (count : K) ≠ 0 := Nat.cast_ne_zero.2 (Nat.ne_of_gt some_old)
    simp only [push, ofSums, Scalar.Exact.ofNat_eq, Nat.cast_add, Nat.cast_one, mk.injEq,
      true_and]
    constructor
    · field_simp
      ring
    · field_simp
      ring

theorem merge_ofSums {m n : ℕ} (sum squares sum' squares' : K) (some_old : m ≠ 0)
    (some_new : n ≠ 0) :
    (ofSums m sum squares).merge (ofSums n sum' squares') =
      ofSums (m + n) (sum + sum') (squares + squares') := by
  have m_ne_zero : (m : K) ≠ 0 := Nat.cast_ne_zero.2 some_old
  have n_ne_zero : (n : K) ≠ 0 := Nat.cast_ne_zero.2 some_new
  have both_ne_zero : (m : K) + n ≠ 0 := by
    rw [← Nat.cast_add]
    exact Nat.cast_ne_zero.2 (by omega)
  rw [merge, if_neg (by simpa [ofSums] using some_new), if_neg (by simpa [ofSums] using some_old)]
  simp only [ofSums, Scalar.Exact.ofNat_eq, Nat.cast_add, mk.injEq, true_and]
  constructor
  · field_simp
    ring
  · field_simp
    ring

/-- The moments of a list are read off its length, its sum and the sum of its squares. -/
theorem ofList_eq_ofSums (xs : List K) :
    ofList xs = ofSums xs.length xs.sum (xs.map (· ^ 2)).sum := by
  induction xs using List.reverseRecOn with
  | nil => exact empty_eq_ofSums
  | append_singleton xs x ih =>
      rw [ofList_append_singleton, ih, push_ofSums]
      · simp
      · intro nothing
        rw [List.length_eq_zero_iff.1 nothing, List.sum_nil]

/-- Numbers may be collected in two accumulators and merged afterwards. -/
theorem merge_ofList (xs ys : List K) : (ofList xs).merge (ofList ys) = ofList (xs ++ ys) := by
  by_cases new : ys = []
  · subst new
    rw [List.append_nil]
    exact merge_of_count_eq_zero _ rfl
  by_cases old : xs = []
  · subst old
    apply empty_merge _
    rw [ofList_eq_ofSums]
    exact fun nothing => new (List.length_eq_zero_iff.1 nothing)
  · rw [ofList_eq_ofSums xs, ofList_eq_ofSums ys, ofList_eq_ofSums (xs ++ ys), merge_ofSums]
    · simp
    · simpa using old
    · simpa using new

end Moments

/-! ## Mean and variance -/

section Textbook

variable {K : Type} [Field K]

/-- The arithmetic mean of a list. -/
def arithmeticMean (xs : List K) : K := xs.sum / xs.length

/-- The sum of the squared deviations from the mean. -/
def squaredDeviations (xs : List K) : K := (xs.map fun x => (x - arithmeticMean xs) ^ 2).sum

/-- The sample variance: the squared deviations over one less than the length. A single number
has none. -/
def sampleVariance? (xs : List K) : Option K :=
  if xs.length ≤ 1 then none else some (squaredDeviations xs / (xs.length - 1))

/-- Squared differences from a number are read off the sum and the sum of squares. -/
theorem sum_sub_sq (xs : List K) (c : K) :
    (xs.map fun x => (x - c) ^ 2).sum =
      (xs.map (· ^ 2)).sum - 2 * c * xs.sum + xs.length * c ^ 2 := by
  induction xs with
  | nil => simp
  | cons x rest ih =>
      simp only [List.map_cons, List.sum_cons, List.length_cons, ih, Nat.cast_succ]
      ring

variable [LinearOrder K] [IsStrictOrderedRing K]

theorem squaredDeviations_eq (xs : List K) :
    squaredDeviations xs = (xs.map (· ^ 2)).sum - xs.sum ^ 2 / xs.length := by
  cases xs with
  | nil => simp [squaredDeviations]
  | cons x rest =>
      have length_ne_zero : ((x :: rest).length : K) ≠ 0 :=
        Nat.cast_ne_zero.2 (Nat.succ_ne_zero _)
      rw [squaredDeviations, sum_sub_sq, arithmeticMean]
      field_simp
      ring

theorem squaredDeviations_nonneg (xs : List K) : 0 ≤ squaredDeviations xs := by
  apply List.sum_nonneg
  intro y mem
  obtain ⟨x, -, rfl⟩ := List.mem_map.1 mem
  exact sq_nonneg _

omit [LinearOrder K] [IsStrictOrderedRing K] in
theorem sampleVariance_of_single {xs : List K} (single : xs.length ≤ 1) :
    sampleVariance? xs = none := if_pos single

theorem sampleVariance_of_several {xs : List K} (several : 1 < xs.length) :
    ∃ v, 0 ≤ v ∧ sampleVariance? xs = some v := by
  have one_le : (1 : K) ≤ xs.length := by exact_mod_cast several.le
  exact ⟨_, div_nonneg (squaredDeviations_nonneg xs) (sub_nonneg.2 one_le),
    if_neg (Nat.not_le.2 several)⟩

/-- The mean adds up to the sum. -/
theorem sum_map_arithmeticMean {xs : List K} (some_xs : xs ≠ []) :
    (xs.map fun _ => arithmeticMean xs).sum = xs.sum := by
  have length_ne_zero : (xs.length : K) ≠ 0 :=
    Nat.cast_ne_zero.2 fun nothing => some_xs (List.length_eq_zero_iff.1 nothing)
  rw [List.map_const', List.sum_replicate, nsmul_eq_mul, arithmeticMean,
    mul_div_cancel₀ _ length_ne_zero]

/-- Some number is not above the mean. -/
theorem exists_le_arithmeticMean {xs : List K} (some_xs : xs ≠ []) :
    ∃ x ∈ xs, x ≤ arithmeticMean xs := by
  apply List.exists_le_of_sum_le some_xs id fun _ => arithmeticMean xs
  rw [sum_map_arithmeticMean some_xs, List.map_id]

/-- Some number is not below the mean. -/
theorem exists_arithmeticMean_le {xs : List K} (some_xs : xs ≠ []) :
    ∃ x ∈ xs, arithmeticMean xs ≤ x := by
  apply List.exists_le_of_sum_le some_xs (fun _ => arithmeticMean xs) id
  rw [sum_map_arithmeticMean some_xs, List.map_id]

namespace Moments

variable [Scalar K] [Scalar.Exact K]

theorem count_ofList (xs : List K) : (ofList xs).count = xs.length := by
  rw [ofList_eq_ofSums, ofSums]

theorem mean_ofList (xs : List K) : (ofList xs).mean = arithmeticMean xs := by
  rw [ofList_eq_ofSums, ofSums, arithmeticMean]

theorem variance_ofList (xs : List K) : (ofList xs).variance = sampleVariance? xs := by
  rw [variance, sampleVariance?, count_ofList]
  by_cases single : xs.length ≤ 1
  · rw [if_pos single, if_pos (Nat.lt_succ_of_le single)]
  · have some_xs : 1 ≤ xs.length := (Nat.lt_of_not_le single).le
    rw [if_neg single, if_neg (fun few => single (Nat.le_of_lt_succ few)), ofList_eq_ofSums,
      ofSums, squaredDeviations_eq, Scalar.Exact.ofNat_eq, Nat.cast_sub some_xs, Nat.cast_one]

end Moments

end Textbook

end PointPattern
