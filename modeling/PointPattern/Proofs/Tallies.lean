/-
# Tallies of several repetitions

A tally keeps the moments of three numbers, so that everything known about moments holds
of it componentwise. The tallies of the chunks, merged in the order of the chunks, count
every repetition in any kind of number; without rounding they are the tally of all
repetitions in one pass.
-/

import PointPattern.Proofs.Moments
import PointPattern.Trials

namespace PointPattern

namespace Tally

section Count

variable {K : Type} [Scalar K]

/-- So many repetitions were counted, for each of the three numbers. -/
structure Counts (t : Tally K) (n : ℕ) : Prop where
  h : t.h.count = n
  u : t.u.count = n
  w : t.w.count = n

theorem counts_empty : (empty : Tally K).Counts 0 := ⟨rfl, rfl, rfl⟩

variable [Add K] [Sub K] [Mul K] [Div K]

/-- The tally of repetitions in their order. -/
def ofList (trials : List (Trial K)) : Tally K := trials.foldl push empty

theorem Counts.push {t : Tally K} {n : ℕ} (counts : t.Counts n) (trial : Trial K) :
    (t.push trial).Counts (n + 1) :=
  ⟨congrArg (· + 1) counts.h, congrArg (· + 1) counts.u, congrArg (· + 1) counts.w⟩

theorem Counts.merge {t other : Tally K} {m n : ℕ} (counts : t.Counts m)
    (others : other.Counts n) : (t.merge other).Counts (m + n) where
  h := by rw [Tally.merge, Moments.count_merge, counts.h, others.h]
  u := by rw [Tally.merge, Moments.count_merge, counts.u, others.u]
  w := by rw [Tally.merge, Moments.count_merge, counts.w, others.w]

theorem Counts.foldl_push {t : Tally K} {n : ℕ} (counts : t.Counts n)
    (trials : List (Trial K)) : (trials.foldl Tally.push t).Counts (n + trials.length) := by
  induction trials generalizing t n with
  | nil => exact counts
  | cons trial rest ih =>
      rw [List.foldl_cons, List.length_cons, Nat.add_comm rest.length, ← Nat.add_assoc]
      exact ih (counts.push trial)

theorem counts_ofList (trials : List (Trial K)) : (ofList trials).Counts trials.length := by
  have counts := counts_empty.foldl_push trials
  rwa [Nat.zero_add] at counts

/-- The tallies of several lists of repetitions, merged in the order of the lists. -/
def mergeAll (t : Tally K) (lists : List (List (Trial K))) : Tally K :=
  lists.foldl (fun t trials => t.merge (ofList trials)) t

theorem Counts.mergeAll {t : Tally K} {n : ℕ} (counts : t.Counts n)
    (lists : List (List (Trial K))) :
    (t.mergeAll lists).Counts (n + lists.flatten.length) := by
  induction lists generalizing t n with
  | nil => exact counts
  | cons trials rest ih =>
      rw [List.flatten_cons, List.length_append, ← Nat.add_assoc]
      exact ih (counts.merge (counts_ofList trials))

theorem foldl_push (trials : List (Trial K)) (t : Tally K) :
    trials.foldl push t =
      ⟨(trials.map (·.h)).foldl Moments.push t.h, (trials.map (·.u)).foldl Moments.push t.u,
        (trials.map (·.w)).foldl Moments.push t.w⟩ := by
  induction trials generalizing t with
  | nil => rfl
  | cons trial rest ih => rw [List.foldl_cons, ih]; rfl

/-- A tally of a list is made of the moments of three lists. -/
theorem ofList_eq (trials : List (Trial K)) :
    ofList trials = ⟨.ofList (trials.map (·.h)), .ofList (trials.map (·.u)),
      .ofList (trials.map (·.w))⟩ :=
  foldl_push trials empty

end Count

variable {K : Type} [Field K] [LinearOrder K] [Scalar K] [Scalar.Exact K] [IsStrictOrderedRing K]

/-- Repetitions may be collected in two tallies and merged afterwards. -/
theorem merge_ofList (trials others : List (Trial K)) :
    (ofList trials).merge (ofList others) = ofList (trials ++ others) := by
  simp only [ofList_eq, merge, Moments.merge_ofList, List.map_append]

/-- Repetitions may be collected in any number of tallies. -/
theorem mergeAll_ofList (trials : List (Trial K)) (lists : List (List (Trial K))) :
    (ofList trials).mergeAll lists = ofList (trials ++ lists.flatten) := by
  induction lists generalizing trials with
  | nil => rw [List.flatten_nil, List.append_nil]; rfl
  | cons others rest ih =>
      rw [mergeAll, List.foldl_cons, merge_ofList, List.flatten_cons, ← List.append_assoc]
      exact ih (trials ++ others)

/-- Merging the tallies of several lists gives the tally of them all in one pass. -/
theorem mergeAll_eq_ofList (lists : List (List (Trial K))) :
    empty.mergeAll lists = ofList lists.flatten := mergeAll_ofList [] lists

/-- It does not matter how repetitions are cut into lists. -/
theorem mergeAll_congr (lists lists' : List (List (Trial K)))
    (flat : lists.flatten = lists'.flatten) : empty.mergeAll lists = empty.mergeAll lists' := by
  rw [mergeAll_eq_ofList, mergeAll_eq_ofList, flat]

end Tally

end PointPattern
