/-
# Sums grow with the rank of the neighbor

What a repetition draws at random does not depend on the rank that it asks for: it chooses the same
rows and places the same points. A distance of a larger rank is nowhere smaller, whatever ties
there are. So without rounding both sums of every repetition grow with the rank, and so do their
means, on any number of workers.
-/

import PointPattern.Proofs.LeaveOneOut

namespace PointPattern

open PointPattern.Random

section Exact

variable {K : Type} [Field K] [LinearOrder K] [Scalar K] [Scalar.Exact K]
variable {data : PointSet K} {measure : List K → List K → K} {k k' : ℕ}

/-! ## Distances and their sums -/

theorem PointSet.distanceOf_mono (rank_pos : 1 ≤ k) (le : k ≤ k') (rank_le : k' ≤ data.size)
    (measure : List K → List K → K) (row : List K) :
    data.distanceOf measure row k ≤ data.distanceOf measure row k' := by
  have ranked := data.isRanked_distanceOf rank_pos (le.trans rank_le) measure row
  have ranked' := data.isRanked_distanceOf (rank_pos.trans le) rank_le measure row
  exact (Scalar.not_before_iff _ _).1 (ranked.not_before_of_le ranked' le)

variable [IsStrictOrderedRing K]

/-- A sum over rows does not become smaller when the distances are those of a larger rank. -/
theorem PointSet.sum_distanceOf_mono (nonneg : ∀ x y, 0 ≤ measure x y) (rank_pos : 1 ≤ k)
    (le : k ≤ k') (rank_le : k' ≤ data.size) (rows : List (List K)) :
    (rows.map fun row => data.distanceOf measure row k ^ data.dim).sum ≤
      (rows.map fun row => data.distanceOf measure row k' ^ data.dim).sum := by
  refine List.sum_le_sum fun row _ => ?_
  exact pow_le_pow_left₀ (data.distanceOf_nonneg nonneg row k)
    (data.distanceOf_mono rank_pos le rank_le measure row) data.dim

/-- A repetition with its two sums no smaller than those of another one. -/
structure Trial.Grows (trial trial' : Trial K) : Prop where
  u_le : trial.u ≤ trial'.u
  w_le : trial.w ≤ trial'.w

theorem PointSet.trialOver_grows (nonneg : ∀ x y, 0 ≤ measure x y) (rank_pos : 1 ≤ k)
    (le : k ≤ k') (enough : k' + 1 ≤ data.size) (chosen placed : List (List K)) :
    (data.trialOver measure k chosen placed).Grows (data.trialOver measure k' chosen placed) where
  u_le := data.sum_distanceOf_mono nonneg rank_pos le (by omega) placed
  w_le := data.sum_distanceOf_mono nonneg (Nat.succ_pos k) (Nat.succ_le_succ le) enough chosen

omit [Scalar K] [Scalar.Exact K] in
theorem arithmeticMean_mono {α : Type} {f g : α → K} (le : ∀ a, f a ≤ g a) (xs : List α) :
    arithmeticMean (xs.map f) ≤ arithmeticMean (xs.map g) := by
  rw [arithmeticMean, arithmeticMean, List.length_map, List.length_map]
  exact div_le_div_of_nonneg_right (List.sum_le_sum fun a _ => le a) (Nat.cast_nonneg _)

/-! ## Repetitions -/

section Repetitions

variable {σ γ : Type} {o : Oracle σ K} {box : Box K} {size : ℕ}

omit [IsStrictOrderedRing K] in
/-- A repetition is over the rows that its source of randomness chooses and places. -/
theorem yields_trialOver (measures : o.Measures measure data) (nonneg : ∀ x y, 0 ≤ measure x y)
    (rank_pos : 1 ≤ k) (enough : k + 1 ≤ data.size) (low : box.low.length = data.dim)
    {source : Source γ K} {g g' g'' : γ} {numbers : List ℕ} {rows : List (List K)}
    (chosen : source.choose data.size size g = (.ok (numbers.map fun (row : ℕ) => (row : ℤ)), g'))
    (exist : ∀ number ∈ numbers, number < data.size)
    (placed : box.sample source size g' = (.ok (.ofRows data.dim rows), g''))
    (lengths : ∀ row ∈ rows, row.length = data.dim) :
    Draw.Yields (runTrial o source data box size k) g
      (.ok (data.trialOver measure k (numbers.map fun number => data.points.getD number []) rows))
      g'' := by
  have computes : o.Computes (data.distanceOf measure) data.size data.dim := measures
  have sums (rank : ℤ) (rows : List (List K)) :
      rowSum (data.distanceOf measure) rank data.dim rows = .ok _ :=
    rowSum_of_nonneg fun row _ => data.distanceOf_nonneg nonneg row rank
  have yields := yields_runTrial_drawn computes low rank_pos enough chosen exist placed lengths
  rw [sums, sums] at yields
  exact yields

omit [LinearOrder K] [Scalar.Exact K] [IsStrictOrderedRing K] in
/-- More rows than there are cannot be chosen. -/
theorem endsAs_sampleTooLarge (beyond : data.size < size) (o : Oracle σ K) (box : Box K)
    (stream : ℕ → Stream) (k : ℕ) :
    EndsAs (repetition o (streamSource K) stream data box size k)
      fun _ => .error (.random .sampleTooLarge) := by
  intro j s
  have drawn : (streamSource K).choose data.size size (stream j) =
      (.error (.random .sampleTooLarge), stream j) :=
    if_pos (by omega)
  have real : Draw.Yields (sampleReal o (streamSource K) data size k) (stream j)
      (.error (.random .sampleTooLarge)) (stream j) :=
    (Draw.Yields.random drawn).bind_error _ _
  exact (real.bind_error _ (stream j) s).1

omit [IsStrictOrderedRing K] in
/-- On the streams of a seed every repetition gives a trial. -/
theorem endsAs_trialOver (measures : o.Measures measure data) (nonneg : ∀ x y, 0 ≤ measure x y)
    (spans : box.Spans data.dim) (fits : size ≤ data.size) (rank_pos : 1 ≤ k)
    (enough : k + 1 ≤ data.size) (seed : Seed) :
    EndsAs (repetition o (streamSource K) (fun j => .ofSeed (seed.spawn j)) data box size k)
      fun j => .ok <| data.trialOver measure k (chosenRows data size (.ofSeed (seed.spawn j)))
        (placedRows box data.dim size ((Stream.ofSeed (seed.spawn j)).choose data.size size).2) := by
  intro j s
  have keeps (j : ℕ) : (Stream.ofSeed (seed.spawn j)).KeepsWord := Stream.keepsWord_ofSeed _
  have ended := endsAs_trialOn measures spans fits rank_pos enough keeps j s
  exact ended.trans (trialOn_of_nonneg nonneg data box size k _)

/-- The means of a run are those of the sums of its repetitions. -/
theorem means_tally_ofList (trials : List (Trial K)) :
    (Tally.ofList trials).u.mean = arithmeticMean (trials.map Trial.u) ∧
      (Tally.ofList trials).w.mean = arithmeticMean (trials.map Trial.w) := by
  rw [Tally.ofList_eq]
  exact ⟨Moments.mean_ofList _, Moments.mean_ofList _⟩

end Repetitions

end Exact

/-! ## Runs -/

/-- Both sums of every repetition grow with the rank of the neighbor. Take any point set, any
measure that is not negative, two oracles that answer by it, any box and two ranks below the number
of rows, the second no smaller. Whatever rows a source of randomness chooses and places, repetitions
for the two ranks are over the same ones and leave the same of the source, and neither sum is
smaller for the second rank. So on the streams of any seed, with any number of workers, two runs
give for each repetition a trial over the same rows, with growing sums, and the means of the sums
grow; or both fail because more rows are to be chosen than there are. -/
theorem runTrials_grow_with_rank {σ τ K : Type} [Field K] [LinearOrder K] [IsStrictOrderedRing K]
    [Scalar K] [Scalar.Exact K] {o : Oracle σ K} {o' : Oracle τ K} {data : PointSet K}
    {measure : List K → List K → K} {k k' : ℕ} {box : Box K} (measures : o.Measures measure data)
    (measures' : o'.Measures measure data) (nonneg : ∀ x y, 0 ≤ measure x y) (rank_pos : 1 ≤ k)
    (le : k ≤ k') (enough : k' + 1 ≤ data.size) (spans : box.Spans data.dim) :
    (∀ {γ : Type} (source : Source γ K) (size : ℕ) (g g' g'' : γ) (numbers : List ℕ)
      (rows : List (List K)),
      source.choose data.size size g = (.ok (numbers.map fun (row : ℕ) => (row : ℤ)), g') →
      (∀ number ∈ numbers, number < data.size) →
      box.sample source size g' = (.ok (.ofRows data.dim rows), g'') →
      (∀ row ∈ rows, row.length = data.dim) →
      let chosen := numbers.map fun number => data.points.getD number []
      Draw.Yields (runTrial o source data box size k) g
          (.ok (data.trialOver measure k chosen rows)) g'' ∧
        Draw.Yields (runTrial o' source data box size k') g
          (.ok (data.trialOver measure k' chosen rows)) g'' ∧
        (data.trialOver measure k chosen rows).Grows (data.trialOver measure k' chosen rows)) ∧
    ∀ (size count : ℕ) (seed : Seed) (jobs jobs' : ℤ) (processors processors' : Option ℕ) (s : σ)
      (s' : τ),
      let stream (j : ℕ) := Stream.ofSeed (seed.spawn j)
      let trial (rank j : ℕ) := data.trialOver measure rank (chosenRows data size (stream j))
        (placedRows box data.dim size ((stream j).choose data.size size).2)
      let ended := (runTrials (repetition o (streamSource K) stream data box size k) count
        (resolveJobs jobs count processors).toNat s).1
      let ended' := (runTrials (repetition o' (streamSource K) stream data box size k') count
        (resolveJobs jobs' count processors').toNat s').1
      (size ≤ data.size → ∃ summary summary', ended = .ok summary ∧ ended' = .ok summary' ∧
        summary.trials = (List.range count).map (trial k) ∧
        summary'.trials = (List.range count).map (trial k') ∧
        (∀ j, (trial k j).Grows (trial k' j)) ∧
        summary.tally.u.mean ≤ summary'.tally.u.mean ∧
        summary.tally.w.mean ≤ summary'.tally.w.mean) ∧
      (data.size < size → 0 < count → ended = .error (.random .sampleTooLarge) ∧
        ended' = .error (.random .sampleTooLarge)) := by
  have grows := fun chosen placed =>
    data.trialOver_grows nonneg rank_pos le enough chosen placed
  have enough_k : k + 1 ≤ data.size := by omega
  have rank_pos' : 1 ≤ k' := rank_pos.trans le
  refine ⟨?_, ?_⟩
  · intro γ source size g g' g'' numbers rows chosen exist placed lengths
    exact ⟨yields_trialOver measures nonneg rank_pos enough_k spans.low chosen exist placed lengths,
      yields_trialOver measures' nonneg rank_pos' enough spans.low chosen exist placed lengths,
      grows _ _⟩
  · intro size count seed jobs jobs' processors processors' s s'
    have workers := toNat_resolveJobs_pos jobs count processors
    have workers' := toNat_resolveJobs_pos jobs' count processors'
    refine ⟨fun fits => ?_, fun beyond some_count => ?_⟩
    · have ends := endsAs_trialOver measures nonneg spans fits rank_pos enough_k seed
      have ends' := endsAs_trialOver measures' nonneg spans fits rank_pos' enough seed
      refine ⟨_, _, runTrials_of_complete ends workers (fun _ _ => rfl) s,
        runTrials_of_complete ends' workers' (fun _ _ => rfl) s', rfl, rfl, fun j => grows _ _, ?_⟩
      dsimp only
      rw [(means_tally_ofList _).1, (means_tally_ofList _).1, (means_tally_ofList _).2,
        (means_tally_ofList _).2]
      simp only [List.map_map]
      exact ⟨arithmeticMean_mono (fun j => (grows _ _).u_le) _,
        arithmeticMean_mono (fun j => (grows _ _).w_le) _⟩
    · have found : (List.range count).findSome?
          (failureOf fun _ => (.error (.random .sampleTooLarge) : Except Error (Trial K))) =
            some (.random .sampleTooLarge) := by
        obtain ⟨n, rfl⟩ := Nat.exists_eq_add_one_of_ne_zero some_count.ne'
        rw [List.range_succ_eq_map]
        rfl
      exact ⟨runTrials_of_failure (endsAs_sampleTooLarge beyond o box _ k) workers found s,
        runTrials_of_failure (endsAs_sampleTooLarge beyond o' box _ k') workers' found s'⟩

/-- An oracle that answers with the distances between fractions on a line. -/
def lineOracle : Oracle Unit ℚ :=
  measuringOracle (Metric.distance (.minkowski 1 none)) threePoints

/-- Three repetitions over three points, for the nearest neighbor on two workers and for the second
nearest on one. -/
theorem runTrials_grow_with_rank_threePoints :
    ∃ summary summary',
      (runTrials (repetition lineOracle (streamSource ℚ) (Backend.streamOf 7) threePoints
        ⟨[0], [3], .override⟩ 2 1) 3 2 ()).1 = .ok summary ∧
      (runTrials (repetition lineOracle (streamSource ℚ) (Backend.streamOf 7) threePoints
        ⟨[0], [3], .override⟩ 2 2) 3 1 ()).1 = .ok summary' ∧
      summary.tally.u.mean ≤ summary'.tally.u.mean ∧
      summary.tally.w.mean ≤ summary'.tally.w.mean := by
  have measures := measures_measuringOracle (σ := Unit)
    (Metric.distance (.minkowski 1 none) : List ℚ → List ℚ → ℚ) threePoints
  have nonneg : ∀ x y : List ℚ, 0 ≤ Metric.distance (.minkowski 1 none) x y :=
    minkowskiDistance_nonneg 1
  have spans : (⟨[0], [3], .override⟩ : Box ℚ).Spans threePoints.dim := ⟨rfl, rfl⟩
  have grows := runTrials_grow_with_rank measures measures nonneg (le_refl 1) (by decide : 1 ≤ 2)
    (by decide) spans
  obtain ⟨summary, summary', ended, ended', -, -, -, u_le, w_le⟩ :=
    (grows.2 2 3 ⟨[7], none⟩ (-1) 1 (some 2) none () ()).1 (by decide)
  exact ⟨summary, summary', ended, ended', u_le, w_le⟩

end PointPattern
