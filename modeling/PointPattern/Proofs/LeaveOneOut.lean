/-
# A sampled row is compared with the other rows

A sampled row is in the corpus itself, at distance zero from itself, and no distance is below zero.
So the corpus without this one row has every rank one lower, whatever duplicates of the row and
ties are left: the real sample adds up the powers of distances to neighbors among the other rows,
and the uniform sample, whose points are not in the corpus, those of distances to neighbors among
all of them.
-/

import PointPattern.Proofs.Double.Ranking
import PointPattern.Proofs.RowOrder

namespace PointPattern

open PointPattern.Random

section Ranks

variable {σ γ K : Type} [Scalar K]

/-! ## Distances of the rows -/

/-- The distances from a row of a point set to the other rows, by a measure. -/
def PointSet.distancesToOthers (data : PointSet K) (measure : List K → List K → K) (number : ℕ) :
    List K :=
  (data.points.eraseIdx number).map (measure (data.points.getD number []))

/-- A measure by which every row of a point set is at distance zero from itself and no row is at a
distance below zero from another. -/
structure PointSet.HasDissimilarity (data : PointSet K) (measure : List K → List K → K) :
    Prop where
  self : ∀ row ∈ data.points, Scalar.Tied (measure row row) Scalar.zero
  nonneg : ∀ row ∈ data.points, ∀ other ∈ data.points,
    Scalar.before (measure row other) Scalar.zero = false

variable {data : PointSet K} {measure : List K → List K → K} {k number : ℕ}

omit [Scalar K] in
theorem PointSet.perm_distancesToOthers (inside : number < data.size) :
    (measure (data.points.getD number []) (data.points.getD number []) ::
        data.distancesToOthers measure number).Perm
      (data.points.map (measure (data.points.getD number []))) := by
  have row : data.points.getD number [] = data.points[number] := List.getD_eq_getElem _ _ inside
  have taken_out := List.getElem_cons_eraseIdx_perm inside
  rw [PointSet.distancesToOthers, row]
  exact taken_out.map (measure data.points[number])

variable [Scalar.Ranks K]

/-- The distance of a rank has this rank among the distances to all rows. -/
theorem PointSet.isRanked_distanceOf (rank_pos : 1 ≤ k) (rank_le : k ≤ data.size)
    (measure : List K → List K → K) (row : List K) :
    IsRanked k (data.points.map (measure row)) (data.distanceOf measure row k) := by
  have rank_le : k ≤ (data.points.map (measure row)).length := by rwa [List.length_map]
  obtain ⟨x, selected, ranked⟩ := exists_kthSmallest? rank_pos rank_le
  have distance : data.distanceOf measure row k = x := by
    rw [PointSet.distanceOf, Oracle.rankedDistance, Int.toNat_natCast, selected]
    rfl
  rwa [distance]

/-- The rank after a rank excludes a row itself: among the distances to the other rows it is that
rank. -/
theorem PointSet.isRanked_distancesToOthers (dissimilarity : data.HasDissimilarity measure)
    (rank_pos : 1 ≤ k) (enough : k + 1 ≤ data.size) (inside : number < data.size) :
    IsRanked k (data.distancesToOthers measure number)
      (data.distanceOf measure (data.points.getD number []) (k + 1)) := by
  have row_mem := data.getD_mem inside
  have among_all := data.isRanked_distanceOf (Nat.succ_pos k) enough measure
    (data.points.getD number [])
  refine (among_all.perm (data.perm_distancesToOthers inside).symm).of_cons rank_pos ?_
  intro x mem
  obtain ⟨other, other_mem, rfl⟩ := List.mem_map.1 mem
  have other_mem := List.mem_of_mem_eraseIdx other_mem
  exact Scalar.not_before_trans (dissimilarity.nonneg _ row_mem other other_mem)
    (dissimilarity.self _ row_mem).not_after

/-! ## Sums of distances -/

/-- What numbers come to that are raised to a power and added up, if they are distances: the sum,
the reason why there is none, or the complaint about the first number that is no distance. -/
inductive AddsUp (rank : ℤ) (dim : ℕ) (xs : List K) : Except Error K → Prop
  | sum {total : K} (distances : ∀ x ∈ xs, isDistance x = true)
      (added : Scalar.sum (xs.map (Scalar.power · dim)) = .ok total) :
      AddsUp rank dim xs (.ok total)
  | failed {failure : Number.SumFailure} (distances : ∀ x ∈ xs, isDistance x = true)
      (added : Scalar.sum (xs.map (Scalar.power · dim)) = .error failure) :
      AddsUp rank dim xs (.error (.number (.sum failure)))
  | refused {before after : List K} {x : K} (split : xs = before ++ x :: after)
      (first : ∀ y ∈ before, isDistance y = true) (no_distance : isDistance x = false) :
      AddsUp rank dim xs (.error (.oracle
        (.invalidDistance ("np.float64(" ++ Scalar.written x ++ ")") before.length rank)
        (some rank) (some before.length)))

omit [Scalar.Ranks K] in
theorem addsUp (rank : ℤ) (dim : ℕ) (xs : List K) :
    AddsUp rank dim xs (do aggregate (← checkDistances rank xs) dim) := by
  show AddsUp rank dim xs ((checkDistances rank xs).bind (aggregate · dim))
  rw [checkDistances]
  cases found : xs.findIdx? fun x => !isDistance x with
  | none =>
      have distances : ∀ x ∈ xs, isDistance x = true := by
        simpa using List.findIdx?_eq_none_iff.1 found
      show AddsUp rank dim xs (aggregate xs dim)
      rw [aggregate]
      cases added : Scalar.sum (xs.map (Scalar.power · dim)) with
      | error failure => exact .failed distances added
      | ok total => exact .sum distances added
  | some i =>
      obtain ⟨inside, no_distance, first⟩ := List.findIdx?_eq_some_iff_getElem.1 found
      have split : xs = xs.take i ++ xs[i] :: xs.drop (i + 1) := by
        rw [← List.drop_eq_getElem_cons inside, List.take_append_drop]
      have before : ∀ y ∈ xs.take i, isDistance y = true := by
        intro y mem
        obtain ⟨j, below, rfl⟩ := List.mem_take_iff_getElem.1 mem
        simpa using first j (by omega)
      have refused : AddsUp rank dim xs _ := .refused split before (by simpa using no_distance)
      rw [List.length_take_of_le inside.le] at refused
      dsimp only [Except.bind]
      rw [List.getElem?_eq_getElem inside]
      exact refused

omit [Scalar.Ranks K] in
/-- A sum over rows adds up numbers that are related to them as the distances are. -/
theorem exists_addsUp_rowSum {α : Type} {related : α → K → Prop} {f : List K → ℤ → K} {rank : ℤ}
    {row : α → List K} {origins : List α}
    (each : ∀ origin ∈ origins, related origin (f (row origin) rank)) (dim : ℕ) :
    ∃ xs, List.Forall₂ related origins xs ∧
      AddsUp rank dim xs (rowSum f rank dim (origins.map row)) := by
  refine ⟨origins.map fun origin => f (row origin) rank, ?_, ?_⟩
  · exact List.forall₂_map_right_iff.2 (List.forall₂_same.2 each)
  · rw [rowSum, List.map_map]
    exact addsUp rank dim _

end Ranks

/-! ## Without rounding -/

section Exact

variable {σ γ K : Type} [Field K] [LinearOrder K] [Scalar K] [Scalar.Exact K]

/-- Without rounding the number of a rank is the one at its place in the order. -/
theorem IsRanked.eq_orderStatistic {rank : ℕ} {xs : List K} {x : K} (ranked : IsRanked rank xs x) :
    x = orderStatistic xs (rank - 1) := by
  have rank_pos : 1 ≤ rank := Nat.lt_of_le_of_lt (Nat.zero_le _) ranked.before_lt
  have rank_le : rank ≤ xs.length := ranked.le_upTo.trans List.countP_le_length
  obtain ⟨y, selected, ranked'⟩ := exists_kthSmallest? rank_pos rank_le
  rw [(Scalar.tied_iff x y).1 (ranked.tied ranked'), orderStatistic, List.getD_eq_getElem?_getD,
    ← kthSmallest?_eq_getElem? rank_pos, selected]
  rfl

omit [Scalar K] [Scalar.Exact K] in
theorem orderStatistic_nonneg {xs : List K} (nonneg : ∀ x ∈ xs, 0 ≤ x) (place : ℕ) :
    0 ≤ orderStatistic xs place := by
  rw [orderStatistic, List.getD_eq_getElem?_getD]
  cases found : (xs.insertionSort (· ≤ ·))[place]? with
  | none => exact le_rfl
  | some x => exact nonneg x ((List.perm_insertionSort _ xs).mem_iff.1 (List.mem_of_getElem? found))

/-- Without rounding numbers that are no less than zero come to the sum of their powers. -/
theorem AddsUp.eq_sum {rank : ℤ} {dim : ℕ} {xs : List K} {result : Except Error K}
    (adds : AddsUp rank dim xs result) (nonneg : ∀ x ∈ xs, 0 ≤ x) :
    result = .ok (xs.map (· ^ dim)).sum := by
  have powers : Scalar.sum (xs.map (Scalar.power · dim)) = .ok (xs.map (· ^ dim)).sum := by simp
  cases adds with
  | sum _ added =>
      rw [powers] at added
      rw [Except.ok.inj added]
  | failed _ added =>
      rw [powers] at added
      cases added
  | refused split _ no_distance =>
      have mem := split ▸ List.mem_append_cons_self
      rw [isDistance_iff.2 (nonneg _ mem)] at no_distance
      cases no_distance

/-- Numbers of a rank come to the sum over the places in the order. -/
theorem AddsUp.eq_sum_orderStatistic {α : Type} {distances : α → List K} {origins : List α}
    {k dim : ℕ} {rank : ℤ} {xs : List K} {result : Except Error K}
    (ranked : List.Forall₂ (fun origin => IsRanked k (distances origin)) origins xs)
    (adds : AddsUp rank dim xs result)
    (nonneg : ∀ origin ∈ origins, ∀ x ∈ distances origin, 0 ≤ x) :
    result = .ok (origins.map fun origin =>
      orderStatistic (distances origin) (k - 1) ^ dim).sum := by
  have places : xs = origins.map fun origin => orderStatistic (distances origin) (k - 1) := by
    rw [← List.forall₂_eq_eq_eq, List.forall₂_map_right_iff]
    exact (ranked.imp fun _ _ ranked => ranked.eq_orderStatistic).flip
  subst places
  rw [adds.eq_sum (List.forall_mem_map.2 fun origin mem =>
    orderStatistic_nonneg (nonneg origin mem) _), List.map_map]
  rfl

end Exact

/-! ## The two samples -/

section Samples

variable {σ K : Type} [Scalar K] [Scalar.Ranks K] {o : Oracle σ K} {data : PointSet K}
variable {measure : List K → List K → K} {k : ℕ}

/-- The real sample adds up numbers of the rank among the distances from the chosen rows to the
other rows. -/
theorem exists_addsUp_sampleReal (measures : o.Measures measure data)
    (dissimilarity : data.HasDissimilarity measure) (rank_pos : 1 ≤ k) (enough : k + 1 ≤ data.size)
    {γ : Type} {source : Source γ K} {size : ℕ} {g g' : γ} {numbers : List ℕ}
    (drawn : source.choose data.size size g = (.ok (numbers.map fun (row : ℕ) => (row : ℤ)), g'))
    (exist : ∀ number ∈ numbers, number < data.size) (s : σ) :
    ∃ xs, List.Forall₂ (fun number => IsRanked k (data.distancesToOthers measure number))
        numbers xs ∧
      AddsUp (k + 1) data.dim xs (sampleReal o source data size k (s, g)).1 := by
  have computes : o.Computes (data.distanceOf measure) data.size data.dim := measures
  rw [(yields_sampleReal_drawn computes enough drawn exist s).1]
  exact exists_addsUp_rowSum (fun number mem =>
    PointSet.isRanked_distancesToOthers dissimilarity rank_pos enough (exist number mem)) data.dim

/-- The uniform sample adds up numbers of the rank among the distances from the placed rows to all
rows. -/
theorem exists_addsUp_sampleUniform [Add K] [Mul K] (measures : o.Measures measure data)
    (rank_pos : 1 ≤ k) (rank_le : k ≤ data.size) {γ : Type} {source : Source γ K} {box : Box K}
    {size : ℕ} {g g' : γ} {rows : List (List K)} (low : box.low.length = data.dim)
    (drawn : box.sample source size g = (.ok (.ofRows data.dim rows), g'))
    (lengths : ∀ row ∈ rows, row.length = data.dim) (s : σ) :
    ∃ xs, List.Forall₂ (fun row => IsRanked k (data.points.map (measure row))) rows xs ∧
      AddsUp k data.dim xs (sampleUniform o source box size k (s, g)).1 := by
  have computes : o.Computes (data.distanceOf measure) data.size data.dim := measures
  have each : ∀ row ∈ rows, IsRanked k (data.points.map (measure row))
      (data.distanceOf measure (id row) k) :=
    fun row _ => data.isRanked_distanceOf rank_pos rank_le measure row
  obtain ⟨xs, ranked, adds⟩ := exists_addsUp_rowSum each data.dim
  rw [List.map_id] at adds
  rw [(yields_sampleUniform_drawn computes low drawn lengths rank_pos rank_le s).1]
  exact ⟨xs, ranked, adds⟩

end Samples

/-- The real sample asks for one rank more than the uniform sample, and this excludes exactly the
sampled row. Take any point set, any oracle that answers with the distances of the ranks by a
measure, and any rank below the number of rows. For every row the distance of the next rank to all
rows is the distance of the rank to the other rows, up to ties. So whatever rows a source of
randomness chooses, the real sample adds up the distances of the rank from them to the other rows,
each raised to the number of axes, and whatever rows it places in the box, the uniform sample adds
up the distances of the rank from those to all rows. Without rounding both samples always return
these sums. -/
theorem sampleReal_leaves_row_out {σ K : Type} [Scalar K] [Scalar.Ranks K] {o : Oracle σ K}
    {data : PointSet K} {measure : List K → List K → K} {k : ℕ}
    (measures : o.Measures measure data) (dissimilarity : data.HasDissimilarity measure)
    (rank_pos : 1 ≤ k) (enough : k + 1 ≤ data.size) :
    (∀ number < data.size, IsRanked k (data.distancesToOthers measure number)
      (data.distanceOf measure (data.points.getD number []) (k + 1))) ∧
    (∀ {γ : Type} (source : Source γ K) (size : ℕ) (g g' : γ) (numbers : List ℕ),
      source.choose data.size size g = (.ok (numbers.map fun (row : ℕ) => (row : ℤ)), g') →
      (∀ number ∈ numbers, number < data.size) → ∀ s : σ,
        (∃ xs, List.Forall₂ (fun number => IsRanked k (data.distancesToOthers measure number))
            numbers xs ∧
          AddsUp (k + 1) data.dim xs (sampleReal o source data size k (s, g)).1) ∧
        ∀ [Field K] [LinearOrder K] [Scalar.Exact K],
          (sampleReal o source data size k (s, g)).1 = .ok (numbers.map fun number =>
            orderStatistic (data.distancesToOthers measure number) (k - 1) ^ data.dim).sum) ∧
    (∀ {γ : Type} [Add K] [Mul K] (source : Source γ K) (box : Box K) (size : ℕ) (g g' : γ)
      (rows : List (List K)), box.low.length = data.dim →
      box.sample source size g = (.ok (.ofRows data.dim rows), g') →
      (∀ row ∈ rows, row.length = data.dim) → ∀ s : σ,
        ∃ xs, List.Forall₂ (fun row => IsRanked k (data.points.map (measure row))) rows xs ∧
          AddsUp k data.dim xs (sampleUniform o source box size k (s, g)).1) ∧
    ∀ {γ : Type} [Field K] [LinearOrder K] [Scalar.Exact K] (source : Source γ K) (box : Box K)
      (size : ℕ) (g g' : γ) (rows : List (List K)), box.low.length = data.dim →
      box.sample source size g = (.ok (.ofRows data.dim rows), g') →
      (∀ row ∈ rows, row.length = data.dim) →
      (∀ row ∈ rows, ∀ other ∈ data.points, 0 ≤ measure row other) → ∀ s : σ,
        (sampleUniform o source box size k (s, g)).1 = .ok (rows.map fun row =>
          orderStatistic (data.points.map (measure row)) (k - 1) ^ data.dim).sum := by
  refine ⟨fun number inside =>
    PointSet.isRanked_distancesToOthers dissimilarity rank_pos enough inside, ?_, ?_, ?_⟩
  · intro γ source size g g' numbers drawn exist s
    obtain ⟨xs, ranked, adds⟩ :=
      exists_addsUp_sampleReal measures dissimilarity rank_pos enough drawn exist s
    refine ⟨⟨xs, ranked, adds⟩, adds.eq_sum_orderStatistic ranked fun number mem x x_mem => ?_⟩
    obtain ⟨other, other_mem, rfl⟩ := List.mem_map.1 x_mem
    have nonneg := dissimilarity.nonneg _ (data.getD_mem (exist number mem)) other
      (List.mem_of_mem_eraseIdx other_mem)
    rwa [Scalar.not_before_iff, Scalar.zero_eq] at nonneg
  · intro γ _ _ source box size g g' rows low drawn lengths s
    exact exists_addsUp_sampleUniform measures rank_pos (by omega) low drawn lengths s
  · intro γ _ _ _ source box size g g' rows low drawn lengths nonneg s
    obtain ⟨xs, ranked, adds⟩ :=
      exists_addsUp_sampleUniform measures rank_pos (by omega) low drawn lengths s
    exact adds.eq_sum_orderStatistic ranked fun row mem => List.forall_mem_map.2 (nonneg row mem)

/-- The distance of doubles on a line. -/
def lineDistance : List Float → List Float → Float := Metric.distance (.minkowski 1 none)

/-- Three points on a line, two of them in the same place. -/
def twins : PointSet Float where
  dim := 1
  points := [[0], [0], [3]]
  dim_pos := Nat.one_pos
  points_ne_nil := List.cons_ne_nil _ _
  length_eq := by simp

theorem hasDissimilarity_twins : twins.HasDissimilarity lineDistance where
  self := by
    have zero : ∀ row ∈ twins.points,
        Scalar.before (lineDistance row row) Scalar.zero = false ∧
          Scalar.before Scalar.zero (lineDistance row row) = false := by decide +kernel
    exact fun row mem => ⟨(zero row mem).1, (zero row mem).2⟩
  nonneg := by decide +kernel

/-- The same points without rounding. -/
def exactTwins : PointSet ℚ where
  dim := 1
  points := [[0], [0], [3]]
  dim_pos := Nat.one_pos
  points_ne_nil := List.cons_ne_nil _ _
  length_eq := by simp

/-- The distance of rational numbers. -/
def gap (u v : List ℚ) : ℚ := |u.headD 0 - v.headD 0|

theorem hasDissimilarity_exactTwins : exactTwins.HasDissimilarity gap where
  self row _ := by
    rw [gap, sub_self, abs_zero, Scalar.zero_eq]
  nonneg row _ other _ := by
    rw [Scalar.not_before_iff, Scalar.zero_eq]
    exact abs_nonneg _

/-- Two of the three points are sampled, and each is compared with the other two. Without rounding
the last point and the first one are chosen, of which the first has its twin among the others. -/
theorem sampleReal_leaves_row_out_twins :
    (∀ number < 3, IsRanked 1 (twins.distancesToOthers lineDistance number)
      (twins.distanceOf lineDistance (twins.points.getD number []) 2)) ∧
    (∃ xs, List.Forall₂ (fun number => IsRanked 1 (twins.distancesToOthers lineDistance number))
        ((Backend.streamOf 7 0).choose 3 2).1 xs ∧
      AddsUp 2 1 xs (sampleReal (measuringOracle lineDistance twins) (streamSource Float) twins 2 1
        ((), Backend.streamOf 7 0)).1) ∧
    (sampleReal (measuringOracle gap exactTwins) (streamSource ℚ) exactTwins 2 1
      ((), Backend.streamOf 7 0)).1 = .ok (3 ^ 1 + 0 ^ 1) ∧
    (sampleUniform (measuringOracle gap exactTwins) (streamSource ℚ) ⟨[0], [3], .data⟩ 2 1
      ((), Backend.streamOf 7 0)).1 = .ok ((placedRows ⟨[0], [3], .data⟩ 1 2
        (Backend.streamOf 7 0)).map fun row =>
          orderStatistic (exactTwins.points.map (gap row)) 0 ^ 1).sum := by
  have measures : (measuringOracle lineDistance twins : Oracle Unit Float).Measures _ _ :=
    measures_measuringOracle lineDistance twins
  have leaves_out := sampleReal_leaves_row_out measures hasDissimilarity_twins (le_refl 1)
    (by decide)
  have exact_measures : (measuringOracle gap exactTwins : Oracle Unit ℚ).Measures _ _ :=
    measures_measuringOracle gap exactTwins
  have leaves_out' := sampleReal_leaves_row_out exact_measures hasDissimilarity_exactTwins
    (le_refl 1) (by decide)
  have enough : 2 ≤ twins.size := by decide
  have exist : ∀ number ∈ ((Backend.streamOf 7 0).choose twins.size 2).1,
      number < twins.size :=
    fun number mem => Stream.choose_lt enough (keepsWord_streamOf 7 0) mem
  have drawn := streamSource_choose_eq (K := Float) enough (Backend.streamOf 7 0)
  have drawn' := streamSource_choose_eq (K := ℚ) enough (Backend.streamOf 7 0)
  have numbers : ((Backend.streamOf 7 0).choose twins.size 2).1 = [2, 0] := by decide +kernel
  refine ⟨leaves_out.1, (leaves_out.2.1 (streamSource Float) 2 _ _ _ drawn exist ()).1, ?_, ?_⟩
  · refine (leaves_out'.2.1 (streamSource ℚ) 2 _ _ _ drawn' exist ()).2.trans ?_
    rw [numbers]
    exact congrArg Except.ok (by decide +kernel)
  · have spans : Box.Spans (⟨[0], [3], .data⟩ : Box ℚ) 1 := ⟨rfl, rfl⟩
    exact leaves_out'.2.2.2 (streamSource ℚ) _ 2 _ _ _ rfl (sample_eq spans 2 _)
      (fun row mem => length_of_mem_placedRows spans mem) (fun _ _ _ _ => abs_nonneg _) ()

end PointPattern
