/-
# Ranks among numbers with ties

A ranking puts two numbers in order or ties them, as it does with equal numbers, with the two zeros
among the doubles and with whatever is not a number. A number has a rank in a list if fewer numbers
than the rank says come before it, and at least as many do not come after it. So the rank of a
number is a matter of counting, numbers of the same rank are tied, and a larger rank does not come
before a smaller one. Selection goes through a list once and ends with a number of the rank.
-/

import PointPattern.Nearest
import Mathlib.Data.List.Count

namespace PointPattern

/-- Kinds of number whose ranking is a strict order in which ties are transitive. -/
class Scalar.Ranks (K : Type) [Scalar K] : Prop where
  asymm : ∀ x y : K, Scalar.before x y = true → Scalar.before y x = false
  splits : ∀ x y z : K, Scalar.before x z = true →
    Scalar.before x y = true ∨ Scalar.before y z = true

section Ranking

variable {K : Type} [Scalar K]

/-- Numbers that a ranking does not distinguish. -/
structure Scalar.Tied (x y : K) : Prop where
  not_before : Scalar.before x y = false
  not_after : Scalar.before y x = false

/-- A number of a rank, counted from one, among numbers: fewer of them than the rank says come
before it, and at least as many do not come after it. -/
structure IsRanked (rank : ℕ) (xs : List K) (x : K) : Prop where
  before_lt : xs.countP (Scalar.before · x) < rank
  le_upTo : rank ≤ xs.countP (!Scalar.before x ·)

variable {x y z : K} {xs ys : List K} {rank rank' : ℕ}

theorem Scalar.Tied.symm (tied : Scalar.Tied x y) : Scalar.Tied y x :=
  ⟨tied.not_after, tied.not_before⟩

/-- Ranks do not depend on the order in which the numbers are listed. -/
theorem IsRanked.perm (ranked : IsRanked rank xs x) (perm : xs.Perm ys) : IsRanked rank ys x :=
  ⟨perm.countP_eq _ ▸ ranked.before_lt, perm.countP_eq _ ▸ ranked.le_upTo⟩

variable [Scalar.Ranks K]

open Scalar (before)

theorem Scalar.before_self (x : K) : before x x = false := by
  cases self : before x x with
  | false => rfl
  | true => exact self ▸ Ranks.asymm x x self

@[refl]
theorem Scalar.Tied.refl (x : K) : Scalar.Tied x x :=
  ⟨Scalar.before_self x, Scalar.before_self x⟩

/-- What does not come before a number does not come before a number that is not after it. -/
theorem Scalar.not_before_trans (not_before : before x y = false)
    (not_before' : before y z = false) : before x z = false := by
  rw [← Bool.not_eq_true] at *
  intro first
  rcases Ranks.splits x y z first with below | above
  · exact not_before below
  · exact not_before' above

/-! ## Numbers of a rank -/

/-- A larger rank does not come before a smaller one. -/
theorem IsRanked.not_before_of_le (ranked : IsRanked rank xs x) (ranked' : IsRanked rank' xs y)
    (le : rank ≤ rank') : before y x = false := by
  rw [← Bool.not_eq_true]
  intro first
  have upTo_before : xs.countP (!before y ·) ≤ xs.countP (before · x) := by
    refine List.countP_mono_left fun z _ not_after => ?_
    rw [Bool.not_eq_true'] at not_after
    exact (Scalar.Ranks.splits y z x first).resolve_left (by simp [not_after])
  have := ranked.before_lt
  have := ranked'.le_upTo
  omega

/-- Numbers of the same rank are tied. -/
theorem IsRanked.tied (ranked : IsRanked rank xs x) (ranked' : IsRanked rank xs y) :
    Scalar.Tied x y :=
  have same := Nat.le_refl rank
  ⟨ranked'.not_before_of_le ranked same, ranked.not_before_of_le ranked' same⟩

/-- Without a number that nothing comes before, every rank is one less. Other numbers may be tied
with it. -/
theorem IsRanked.of_cons (ranked : IsRanked (rank + 1) (z :: xs) x) (rank_pos : 1 ≤ rank)
    (least : ∀ y ∈ xs, before y z = false) : IsRanked rank xs x := by
  have before_lt := ranked.before_lt
  have le_upTo := ranked.le_upTo
  rw [List.countP_cons] at before_lt le_upTo
  cases first : before z x with
  | true =>
      have not_after : before x z = false := Scalar.Ranks.asymm z x first
      rw [if_pos first] at before_lt
      rw [if_pos (by rw [not_after]; rfl)] at le_upTo
      exact ⟨by omega, by omega⟩
  | false =>
      -- Then the number is tied with the one that is left out, and nothing comes before it.
      have none_before : xs.countP (before · x) = 0 := by
        refine List.countP_eq_zero.2 fun y mem => ?_
        rw [Bool.not_eq_true]
        exact Scalar.not_before_trans (least y mem) first
      have at_most_one : (if !before x z then 1 else 0) ≤ 1 := by split <;> omega
      exact ⟨by omega, by omega⟩

/-! ## Selection -/

omit [Scalar.Ranks K] in
theorem perm_insertDescending (x : K) (kept : List K) :
    (insertDescending x kept).Perm (x :: kept) := by
  induction kept with
  | nil => exact .refl _
  | cons y rest ih =>
      rw [insertDescending]
      split
      · exact (ih.cons y).trans (.swap x y rest)
      · exact .refl _

/-- Numbers that are kept of a list, none of them before a later one, and numbers that are given
up, none of them before a kept one. -/
structure Scalar.Selects (kept rest xs : List K) : Prop where
  descends : kept.Pairwise fun y z => before y z = false
  smallest : ∀ y ∈ kept, ∀ z ∈ rest, before z y = false
  all : (kept ++ rest).Perm xs

theorem descends_insertDescending (x : K) {kept : List K}
    (descends : kept.Pairwise fun y z => before y z = false) :
    (insertDescending x kept).Pairwise fun y z => before y z = false := by
  induction kept with
  | nil => exact List.pairwise_singleton _ x
  | cons y rest ih =>
      obtain ⟨largest, descends⟩ := List.pairwise_cons.1 descends
      rw [insertDescending]
      split
      · next less =>
          refine List.pairwise_cons.2 ⟨fun z mem => ?_, ih descends⟩
          rcases List.mem_cons.1 ((perm_insertDescending x rest).mem_iff.1 mem) with rfl | old
          · exact Scalar.Ranks.asymm z y less
          · exact largest z old
      · next not_less =>
          have not_before : before x y = false := by simpa using not_less
          refine List.pairwise_cons.2 ⟨fun z mem => ?_, List.pairwise_cons.2 ⟨largest, descends⟩⟩
          rcases List.mem_cons.1 mem with rfl | old
          · exact not_before
          · exact Scalar.not_before_trans not_before (largest z old)

/-- Exchanging the largest of the kept numbers for a smaller one gives it up. -/
theorem Scalar.Selects.replaceLargest {kept rest xs : List K}
    (selects : Scalar.Selects kept rest xs) (x : K) :
    ∃ rest', Scalar.Selects (replaceLargest kept x) rest' (x :: xs) ∧
      (PointPattern.replaceLargest kept x).length = kept.length := by
  cases kept with
  | nil => exact ⟨x :: rest, ⟨.nil, nofun, selects.all.cons x⟩, rfl⟩
  | cons y ys =>
      obtain ⟨largest, descends⟩ := List.pairwise_cons.1 selects.descends
      rw [PointPattern.replaceLargest]
      split
      · next less =>
          have inserted := perm_insertDescending x ys
          refine ⟨y :: rest, ⟨descends_insertDescending x descends, ?_, ?_⟩, inserted.length_eq⟩
          · intro a mem z z_mem
            have a_upTo : before y a = false := by
              rcases List.mem_cons.1 (inserted.mem_iff.1 mem) with rfl | old
              · exact Ranks.asymm a y less
              · exact largest a old
            rcases List.mem_cons.1 z_mem with rfl | given_up
            · exact a_upTo
            · exact not_before_trans (selects.smallest y List.mem_cons_self z given_up) a_upTo
          · have moved : (x :: ys ++ y :: rest).Perm (x :: (y :: ys ++ rest)) :=
              List.perm_middle.cons x
            exact ((inserted.append_right _).trans moved).trans (selects.all.cons x)
      · next not_less =>
          have not_before : before x y = false := by simpa using not_less
          refine ⟨x :: rest, ⟨selects.descends, ?_, ?_⟩, rfl⟩
          · intro a mem z z_mem
            rcases List.mem_cons.1 z_mem with rfl | given_up
            · rcases List.mem_cons.1 mem with rfl | old
              · exact not_before
              · exact not_before_trans not_before (largest a old)
            · exact selects.smallest a mem z given_up
          · exact List.perm_middle.trans (selects.all.cons x)

theorem selects_foldl_insertDescending (xs : List K) {kept taken : List K}
    (selects : Scalar.Selects kept [] taken) :
    Scalar.Selects (xs.foldl (fun kept x => insertDescending x kept) kept) [] (xs ++ taken) := by
  induction xs generalizing kept taken with
  | nil => exact selects
  | cons x rest ih =>
      have inserted : Scalar.Selects (insertDescending x kept) [] (x :: taken) := by
        refine ⟨descends_insertDescending x selects.descends, nofun, ?_⟩
        rw [List.append_nil]
        have kept_all := selects.all
        rw [List.append_nil] at kept_all
        exact (perm_insertDescending x kept).trans (kept_all.cons x)
      have selected := ih inserted
      exact ⟨selected.descends, selected.smallest, selected.all.trans List.perm_middle⟩

theorem exists_selects_foldl_replaceLargest (xs : List K) {kept rest seen : List K}
    (selects : Scalar.Selects kept rest seen) :
    ∃ rest', Scalar.Selects (xs.foldl replaceLargest kept) rest' (xs ++ seen) ∧
      (xs.foldl replaceLargest kept).length = kept.length := by
  induction xs generalizing kept rest seen with
  | nil => exact ⟨rest, selects, rfl⟩
  | cons x others ih =>
      obtain ⟨rest₁, selects₁, length₁⟩ := selects.replaceLargest x
      obtain ⟨rest', selected, length⟩ := ih selects₁
      refine ⟨rest', ⟨selected.descends, selected.smallest, ?_⟩, length.trans length₁⟩
      exact selected.all.trans List.perm_middle

/-- The smallest numbers of a list are kept, as many as the rank says. -/
theorem exists_selects_smallest (rank_le : rank ≤ xs.length) :
    ∃ rest, Scalar.Selects (smallest rank xs) rest xs ∧ (smallest rank xs).length = rank := by
  have first := selects_foldl_insertDescending (xs.take rank)
    (⟨.nil, nofun, .refl _⟩ : Scalar.Selects ([] : List K) [] [])
  rw [List.append_nil] at first
  have first_length : ((xs.take rank).foldl (fun kept x => insertDescending x kept) []).length =
      rank := by
    have all := first.all.length_eq
    rw [List.append_nil] at all
    rw [all, List.length_take, Nat.min_eq_left rank_le]
  obtain ⟨rest, selects, length⟩ :=
    exists_selects_foldl_replaceLargest (xs.drop rank) first
  refine ⟨rest, ⟨selects.descends, selects.smallest, ?_⟩, length.trans first_length⟩
  have whole : (xs.drop rank ++ xs.take rank).Perm xs := by
    have joined : (xs.drop rank ++ xs.take rank).Perm (xs.take rank ++ xs.drop rank) :=
      List.perm_append_comm
    rwa [List.take_append_drop] at joined
  exact selects.all.trans whole

/-- The first of the kept numbers has the rank that is their number. -/
theorem Scalar.Selects.isRanked {kept rest : List K}
    (selects : Scalar.Selects (x :: kept) rest xs) : IsRanked (kept.length + 1) xs x := by
  obtain ⟨largest, -⟩ := List.pairwise_cons.1 selects.descends
  refine IsRanked.perm ⟨?_, ?_⟩ selects.all
  · have none_before : rest.countP (before · x) = 0 := by
      refine List.countP_eq_zero.2 fun z mem => ?_
      rw [Bool.not_eq_true]
      exact selects.smallest x List.mem_cons_self z mem
    have some_before : kept.countP (before · x) ≤ kept.length := List.countP_le_length
    rw [List.countP_append, List.countP_cons, if_neg (by rw [before_self]; exact nofun),
      none_before]
    omega
  · have all_upTo : (x :: kept).countP (!before x ·) = (x :: kept).length := by
      refine List.countP_eq_length.2 fun y mem => ?_
      rcases List.mem_cons.1 mem with rfl | old
      · rw [before_self]
        rfl
      · rw [largest y old]
        rfl
    rw [List.countP_append, all_upTo, List.length_cons]
    omega

/-- Selection finds a number of every rank of a list. -/
theorem exists_kthSmallest? (rank_pos : 1 ≤ rank) (rank_le : rank ≤ xs.length) :
    ∃ x, kthSmallest? rank xs = some x ∧ IsRanked rank xs x := by
  obtain ⟨rest, selects, length⟩ := exists_selects_smallest rank_le
  rw [kthSmallest?, if_pos rank_le]
  cases kept : smallest rank xs with
  | nil =>
      rw [kept] at length
      simp only [List.length_nil] at length
      omega
  | cons x others =>
      rw [kept] at selects length
      exact ⟨x, rfl, length ▸ selects.isRanked⟩

end Ranking

end PointPattern
