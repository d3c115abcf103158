/-
# Repeated rows

The distance of a rank vanishes exactly for a point that as many rows coincide with as the rank
says. A chosen row is one of the rows that coincide with it, which is what the rank of the real
sample allows for: its sum vanishes if every chosen row has as many other copies as the rank of the
neighbor says, and the uniform sum vanishes if every placed point hits as many rows. The share of a
repetition lies at an end if one of the sums vanishes, and in the middle if both do, as in a run
over copies of a single row, whose box holds nothing else.
-/

import PointPattern.Proofs.Correspondence
import PointPattern.Proofs.Hull
import PointPattern.Proofs.LeaveOneOut
import PointPattern.Proofs.Textbook
import PointPattern.Proofs.Units

namespace PointPattern

open PointPattern.Random

/-! ## Sums that vanish -/

section Sums

variable {K : Type} [Field K] [LinearOrder K] [Scalar K] [Scalar.Exact K]

/-- A measure that is never negative and vanishes between a point and itself only. -/
structure Separates (measure : List K → List K → K) (dim : ℕ) : Prop where
  nonneg : ∀ x y, 0 ≤ measure x y
  eq_zero_iff : ∀ x y, x.length = dim → y.length = dim → (measure x y = 0 ↔ x = y)

/-- Among numbers that are not negative the one of a rank vanishes if as many of them do. -/
theorem IsRanked.eq_zero_iff {rank : ℕ} {xs : List K} {x : K} (ranked : IsRanked rank xs x)
    (nonneg : ∀ y ∈ xs, 0 ≤ y) (x_nonneg : 0 ≤ x) : x = 0 ↔ rank ≤ xs.count 0 := by
  constructor
  · rintro rfl
    refine ranked.le_upTo.trans (List.countP_mono_left fun y mem upTo => ?_)
    rw [Bool.not_eq_true', Scalar.not_before_iff] at upTo
    exact beq_iff_eq.2 (le_antisymm upTo (nonneg y mem))
  · intro enough
    by_contra positive
    have zeros_before : xs.count 0 ≤ xs.countP (Scalar.before · x) := by
      refine List.countP_mono_left fun y _ zero => ?_
      rw [Scalar.before_iff, beq_iff_eq.1 zero]
      exact lt_of_le_of_ne' x_nonneg positive
    have few := ranked.before_lt
    omega

variable {data : PointSet K} {measure : List K → List K → K}

/-- The distance of a rank vanishes if as many rows coincide with the point. -/
theorem PointSet.distanceOf_eq_zero_iff (separates : Separates measure data.dim) {rank : ℕ}
    (rank_pos : 1 ≤ rank) (rank_le : rank ≤ data.size) {row : List K}
    (length : row.length = data.dim) :
    data.distanceOf measure row rank = 0 ↔ rank ≤ data.points.count row := by
  have copies : (data.points.map (measure row)).count 0 = data.points.count row := by
    rw [List.count, List.countP_map]
    refine List.countP_congr fun other mem => ?_
    rw [Function.comp_apply, beq_iff_eq, beq_iff_eq,
      separates.eq_zero_iff row other length (data.length_eq other mem), eq_comm]
  have nonneg : ∀ x ∈ data.points.map (measure row), 0 ≤ x := by
    intro x mem
    obtain ⟨other, -, rfl⟩ := List.mem_map.1 mem
    exact separates.nonneg row other
  have ranked := data.isRanked_distanceOf rank_pos rank_le measure row
  rw [ranked.eq_zero_iff nonneg (data.distanceOf_nonneg separates.nonneg row rank), copies]

variable [IsStrictOrderedRing K]

omit [Scalar K] [Scalar.Exact K] in
theorem sum_powers_eq_zero_iff {rows : List (List K)} {f : List K → K} {dim : ℕ} (dim_pos : 0 < dim)
    (nonneg : ∀ row, 0 ≤ f row) :
    (rows.map fun row => f row ^ dim).sum = 0 ↔ ∀ row ∈ rows, f row = 0 := by
  constructor
  · intro vanishes row mem
    have powers_nonneg : ∀ x ∈ rows.map fun row => f row ^ dim, 0 ≤ x := by
      intro x x_mem
      obtain ⟨other, -, rfl⟩ := List.mem_map.1 x_mem
      exact pow_nonneg (nonneg other) dim
    exact pow_eq_zero_iff dim_pos.ne' |>.1
      (List.all_zero_of_le_zero_le_of_sum_eq_zero powers_nonneg vanishes
        (List.mem_map_of_mem mem))
  · intro all
    refine List.sum_eq_zero fun x mem => ?_
    obtain ⟨row, row_mem, rfl⟩ := List.mem_map.1 mem
    rw [all row row_mem, zero_pow dim_pos.ne']

variable {k : ℕ} {chosen placed : List (List K)}

/-- Repetitions over rows are as the textbook has them. -/
theorem PointSet.isTextbook_trialOver (nonneg : ∀ x y, 0 ≤ measure x y) (data : PointSet K)
    (k : ℕ) (chosen placed : List (List K)) :
    (data.trialOver measure k chosen placed).IsTextbook := by
  have sum_nonneg (rank : ℤ) (rows : List (List K)) :
      0 ≤ (rows.map fun row => data.distanceOf measure row rank ^ data.dim).sum := by
    refine List.sum_nonneg fun x mem => ?_
    obtain ⟨row, -, rfl⟩ := List.mem_map.1 mem
    exact pow_nonneg (data.distanceOf_nonneg nonneg row rank) _
  exact isTextbook_ofSums (sum_nonneg _ _) (sum_nonneg _ _)

/-- The sum over chosen rows vanishes if each of them has as many other copies. -/
theorem PointSet.w_trialOver_eq_zero_iff (separates : Separates measure data.dim)
    (enough : k + 1 ≤ data.size) (lengths : ∀ row ∈ chosen, row.length = data.dim) :
    (data.trialOver measure k chosen placed).w = 0 ↔
      ∀ row ∈ chosen, k + 1 ≤ data.points.count row := by
  refine (sum_powers_eq_zero_iff data.dim_pos fun row =>
    data.distanceOf_nonneg separates.nonneg row (k + 1)).trans ?_
  exact forall₂_congr fun row mem =>
    distanceOf_eq_zero_iff separates (Nat.succ_pos k) enough (lengths row mem)

/-- The sum over placed rows vanishes if each of them coincides with as many rows of the data. -/
theorem PointSet.u_trialOver_eq_zero_iff (separates : Separates measure data.dim) (k_pos : 1 ≤ k)
    (enough : k ≤ data.size) (lengths : ∀ row ∈ placed, row.length = data.dim) :
    (data.trialOver measure k chosen placed).u = 0 ↔
      ∀ row ∈ placed, k ≤ data.points.count row := by
  refine (sum_powers_eq_zero_iff data.dim_pos fun row =>
    data.distanceOf_nonneg separates.nonneg row k).trans ?_
  exact forall₂_congr fun row mem =>
    distanceOf_eq_zero_iff separates k_pos enough (lengths row mem)

end Sums

/-! ## Shares -/

section Shares

variable {K : Type} [Field K] [LinearOrder K] {t : Trial K}

theorem Trial.IsTextbook.h_eq_one (textbook : t.IsTextbook) (w_zero : t.w = 0) (u_pos : 0 < t.u) :
    t.h = 1 := by
  rw [textbook.share, if_neg fun both => u_pos.ne' both.1, w_zero, add_zero, div_self u_pos.ne']

theorem Trial.IsTextbook.h_eq_zero (textbook : t.IsTextbook) (u_zero : t.u = 0) (w_pos : 0 < t.w) :
    t.h = 0 := by
  rw [textbook.share, if_neg fun both => w_pos.ne' both.2, u_zero, zero_div]

theorem Trial.IsTextbook.h_eq_half (textbook : t.IsTextbook) (u_zero : t.u = 0) (w_zero : t.w = 0) :
    t.h = 1 / 2 := by
  rw [textbook.share, if_pos ⟨u_zero, w_zero⟩]

end Shares

/-! ## Copies of one row -/

section Copies

variable {K : Type} [Field K] [LinearOrder K] [IsStrictOrderedRing K] [Scalar K] [Scalar.Exact K]

/-- A placed row lies in the box, on each of its sides. -/
theorem Box.Spans.encloses_of_mem_placedRows {box : Box K} {dim size : ℕ} (spans : box.Spans dim)
    {g : Stream} {row : List K} (mem : row ∈ placedRows box dim size g) {axis : ℕ}
    (inside : axis < dim) :
    OnSide (coordinate box.low axis) (coordinate box.extent axis)
      (coordinate box.low axis + coordinate box.extent axis) (coordinate row axis) := by
  obtain ⟨values, values_mem, rfl⟩ := List.mem_map.1 mem
  have common : commonLength box.dim box.extent.length = some dim := by
    rw [Box.dim, spans.low, spans.extent, commonLength, if_pos rfl]
  have values_length : values.length = box.dim :=
    (Grid.length_of_mem_cut (Stream.length_uniforms _ g) values_mem).trans spans.low.symm
  have encloses := Box.encloses_place common values_length fun u u_mem =>
    Stream.uniforms_mem _ g u (mem_of_mem_cut values_mem u_mem)
  rw [stretch_of_length spans.low, stretch_of_length spans.extent] at encloses
  have high_length : (List.zipWith (· + ·) box.low box.extent).length = dim := by
    rw [List.length_zipWith, spans.low, spans.extent, Nat.min_self]
  have side := encloses.sides axis (high_length.symm ▸ inside)
  rwa [high_length, stretch_of_length spans.low, stretch_of_length spans.extent,
    coordinate_zipWith (spans.low.symm ▸ inside) (spans.extent.symm ▸ inside)] at side

omit [IsStrictOrderedRing K] [Scalar K] [Scalar.Exact K] in
/-- The tight box of copies of a row starts at this row and has no sides. -/
theorem Box.IsTight.flat_of_copies {box : Box K} {high first : List K} {data : PointSet K}
    (tight : box.IsTight high data) (copies : ∀ other ∈ data.points, other = first) {axis : ℕ}
    (inside : axis < data.dim) :
    coordinate first axis = coordinate box.low axis ∧ coordinate box.extent axis = 0 := by
  obtain ⟨other, other_mem, low⟩ := tight.touched_low axis inside
  obtain ⟨other', other_mem', reached⟩ := tight.touched_high axis inside
  rw [copies other other_mem] at low
  obtain rfl : List.zipWith (· + ·) box.low box.extent = high :=
    Except.ok.inj (tight.spans.high_eq.symm.trans tight.high_eq)
  rw [copies other' other_mem', coordinate_zipWith (tight.spans.low.symm ▸ inside)
    (tight.spans.extent.symm ▸ inside), low] at reached
  exact ⟨low, left_eq_add.1 reached⟩

/-- In the tight box of copies of a row there is only this row. -/
theorem Box.IsTight.eq_of_mem_placedRows {box : Box K} {high first row : List K}
    {data : PointSet K} (tight : box.IsTight high data) (first_mem : first ∈ data.points)
    (copies : ∀ other ∈ data.points, other = first) {size : ℕ} {g : Stream}
    (mem : row ∈ placedRows box data.dim size g) : row = first := by
  have row_length := length_of_mem_placedRows tight.spans mem
  refine eq_of_coordinate (row_length.trans (data.length_eq first first_mem).symm) ?_
  intro axis inside
  rw [row_length] at inside
  obtain ⟨low, flat⟩ := tight.flat_of_copies copies inside
  exact ((tight.spans.encloses_of_mem_placedRows mem inside).flat flat).trans low.symm

omit [Scalar K] [Scalar.Exact K] in
/-- A mean of copies of a number. -/
theorem arithmeticMean_of_copies {xs : List K} {c : K} (some_xs : xs ≠ [])
    (copies : ∀ x ∈ xs, x = c) : arithmeticMean xs = c := by
  obtain ⟨x, mem, le⟩ := exists_le_arithmeticMean some_xs
  obtain ⟨y, y_mem, ge⟩ := exists_arithmeticMean_le some_xs
  rw [copies x mem] at le
  rw [copies y y_mem] at ge
  exact le_antisymm ge le

omit [Scalar K] [Scalar.Exact K] in
/-- Copies of a number do not vary. -/
theorem sampleVariance_of_copies {xs : List K} {c : K} (several : 1 < xs.length)
    (copies : ∀ x ∈ xs, x = c) : sampleVariance? xs = some 0 := by
  have some_xs : xs ≠ [] := List.ne_nil_of_length_pos (Nat.zero_lt_of_lt several)
  have deviations : squaredDeviations xs = 0 := by
    refine List.sum_eq_zero fun y mem => ?_
    obtain ⟨x, x_mem, rfl⟩ := List.mem_map.1 mem
    rw [arithmeticMean_of_copies some_xs copies, copies x x_mem, sub_self, zero_pow two_ne_zero]
  rw [sampleVariance?, if_neg (Nat.not_le.2 several), deviations, zero_div]

end Copies

/-! ## Runs -/

section Runs

variable {K : Type}

/-- The rows of the data that a repetition chooses on an entropy. -/
def Design.chosen (d : Design K) (entropy j : ℕ) : List (List K) :=
  chosenRows d.points d.sampleSize (Backend.streamOf entropy j)

variable [Field K] [Scalar K]

/-- The points that a repetition places in a box with what the choice leaves of its stream. -/
def Design.placed (d : Design K) (box : Box K) (entropy j : ℕ) : List (List K) :=
  placedRows box d.points.dim d.sampleSize
    ((Backend.streamOf entropy j).choose d.points.size d.sampleSize).2

omit [Field K] [Scalar K] in
theorem Design.mem_of_mem_chosen {d : Design K} {entropy j : ℕ} {row : List K}
    (mem : row ∈ d.chosen entropy j) : row ∈ d.points.points :=
  mem_of_mem_chosenRows d.sampleSize_le (keepsWord_streamOf entropy j) mem

variable [LinearOrder K]

/-- The numbers of a run that has nothing to compare: all sums vanish, without any variation, and
the shares, the statistic and the p-value are one half. -/
structure Params.IsDegenerate (p : Params K) : Prop where
  trials : ∀ trial ∈ p.trials, trial.u = 0 ∧ trial.w = 0 ∧ trial.h = 1 / 2
  means : p.uMean = 0 ∧ p.wMean = 0
  statistic : p.statistic = 1 / 2
  variances : 1 < p.repetitions →
    p.uVariance = some 0 ∧ p.wVariance = some 0 ∧ p.hVariance = some 0
  pValue : p.pValue = 1 / 2

/-- What the numbers of a run of a design on an entropy say of repeated rows. -/
structure CountsDuplicates (d : Design K) (entropy : ℕ) (p : Params K) : Prop where
  length : p.trials.length = d.repetitions
  w_eq_zero_iff : ∀ j trial, p.trials[j]? = some trial →
    (trial.w = 0 ↔ ∀ row ∈ d.chosen entropy j, d.k + 1 ≤ d.points.points.count row)
  u_eq_zero_iff : ∀ j trial, p.trials[j]? = some trial →
    (trial.u = 0 ↔ ∀ row ∈ d.placed p.box entropy j, d.k ≤ d.points.points.count row)
  h_eq_one : ∀ trial ∈ p.trials, trial.w = 0 → 0 < trial.u → trial.h = 1
  h_eq_zero : ∀ trial ∈ p.trials, trial.u = 0 → 0 < trial.w → trial.h = 0
  identical : d.bounds = none →
    (∀ row ∈ d.points.points, ∀ other ∈ d.points.points, row = other) → p.IsDegenerate

variable [IsStrictOrderedRing K] [Scalar.Exact K]

/-- A design over copies of a row, without bounds, places copies of it. -/
theorem Design.eq_of_mem_placed {d : Design K} {box : Box K} {entropy j : ℕ} {first row : List K}
    (boxed : d.box = .ok box) (unbounded : d.bounds = none) (first_mem : first ∈ d.points.points)
    (copies : ∀ other ∈ d.points.points, other = first) (mem : row ∈ d.placed box entropy j) :
    row = first := by
  obtain ⟨hull, high, hulled, tight⟩ := exists_isTight_hull d.points
  have hull_boxed : d.box = .ok hull := by
    rw [Design.box, unbounded]
    exact hulled
  obtain rfl : box = hull := Except.ok.inj (boxed.symm.trans hull_boxed)
  exact tight.eq_of_mem_placedRows first_mem copies mem

variable [Roots K] [BetaTails K] [BetaTails.Exact K]

/-- If all sums vanish, a run has nothing to compare. -/
theorem Params.IsTextbook.isDegenerate {p : Params K} {d : Design K} (textbook : p.IsTextbook d)
    (vanish : ∀ trial ∈ p.trials, trial.u = 0 ∧ trial.w = 0) : p.IsDegenerate := by
  have column {f : Trial K → K} {c : K} (constant : ∀ trial ∈ p.trials, f trial = c) :
      ∀ x ∈ p.trials.map f, x = c := by
    intro x mem
    obtain ⟨trial, trial_mem, rfl⟩ := List.mem_map.1 mem
    exact constant trial trial_mem
  have u_zero := column fun trial mem => (vanish trial mem).1
  have w_zero := column fun trial mem => (vanish trial mem).2
  have each_half (trial : Trial K) (mem : trial ∈ p.trials) : trial.h = 1 / 2 :=
    (textbook.trials trial mem).h_eq_half (vanish trial mem).1 (vanish trial mem).2
  have h_half := column each_half
  have some_trials (f : Trial K → K) : p.trials.map f ≠ [] := by
    rw [← List.length_pos_iff, List.length_map, textbook.length]
    exact d.repetitions_pos
  have several (f : Trial K → K) (several : 1 < p.repetitions) : 1 < (p.trials.map f).length := by
    rwa [List.length_map, textbook.variances.length]
  have statistic : p.hMean = 1 / 2 :=
    textbook.hMean.trans (arithmeticMean_of_copies (some_trials _) h_half)
  refine ⟨fun trial mem => ?_, ?_, statistic, fun more => ?_, ?_⟩
  · exact ⟨(vanish trial mem).1, (vanish trial mem).2, each_half trial mem⟩
  · exact ⟨textbook.uMean.trans (arithmeticMean_of_copies (some_trials _) u_zero),
      textbook.wMean.trans (arithmeticMean_of_copies (some_trials _) w_zero)⟩
  · exact ⟨textbook.variances.u.trans (sampleVariance_of_copies (several _ more) u_zero),
      textbook.variances.w.trans (sampleVariance_of_copies (several _ more) w_zero),
      textbook.variances.h.trans (sampleVariance_of_copies (several _ more) h_half)⟩
  · have sample_pos : 1 ≤ p.sampleSize := textbook.settings.1 ▸ d.sampleSize_pos
    have middle : Significance.clamp (1 / 2 : K) = 1 / 2 := by
      rw [Significance.clamp_eq, if_neg (by norm_num), if_neg (by norm_num)]
    have significance := textbook.pValue
    rw [statistic, Significance.pValue_eq sample_pos, if_neg (lt_irrefl _), middle,
      binomialTail_half sample_pos] at significance
    exact (Except.ok.inj significance).symm

variable {σ : Type} {b : Backend σ K} {o : Oracle σ K} {d : Design K}
variable {measure : List K → List K → K}

/-- By a measure that is not negative every run reports the sums over the rows that it chooses and
places, and what textbooks make of them. -/
theorem exists_textbook_of_measures (nonneg : ∀ x y, 0 ≤ measure x y)
    (measures : o.Measures measure d.points) (ready : b.oracle d.points = .ok o)
    (enough : d.k + 1 ≤ d.points.size) (host : Host K) (s : σ) :
    let entropy := d.seed.getD host.freshEntropy
    ∃ report, (b.solve host d s).1 = .ok report ∧ d.box = .ok report.params.box ∧
      report.params.IsTextbook d ∧
      ∀ j trial, report.params.trials[j]? = some trial →
        trial = d.points.trialOver measure d.k (d.chosen entropy j)
          (d.placed report.params.box entropy j) := by
  intro entropy
  obtain ⟨box, boxed, spans⟩ := d.box_ok
  let trials (j : ℕ) : Trial K :=
    d.points.trialOver measure d.k (d.chosen entropy j) (d.placed box entropy j)
  have some_workers := Backend.workers_pos (d := d) (o := o) host
  have complete (j : ℕ) : trialOn (d.points.distanceOf measure) d.points box d.sampleSize d.k
      (Backend.streamOf entropy j) = .ok (trials j) :=
    trialOn_of_nonneg nonneg d.points box d.sampleSize d.k _
  have ran := (Backend.sampled_eq (b := b) host s boxed).trans
    (runTrials_of_complete (measures.endsAs enough spans entropy) some_workers
      (fun j _ => complete j) _)
  rw [← mergeAll_chunks some_workers] at ran
  obtain ⟨pValue, significance, textbook⟩ := isTextbook_params d box some_workers
    fun j _ => d.points.isTextbook_trialOver nonneg d.k (d.chosen entropy j)
      (d.placed box entropy j)
  obtain ⟨report, solved, params⟩ :=
    Backend.solve_of_pValue_ok host ready enough boxed ran significance
  refine ⟨report, solved, ?_, params ▸ textbook, fun j trial found => ?_⟩
  · rw [params]
    exact boxed
  · rw [params] at found ⊢
    obtain ⟨-, rfl⟩ : j < d.repetitions ∧ trials j = trial := by
      simpa [Backend.params, List.getElem?_eq_some_iff] using found
    rfl

/-- By a measure that separates points every run reports what it finds of repeated rows. -/
theorem exists_countsDuplicates_of_measures (separates : Separates measure d.points.dim)
    (measures : o.Measures measure d.points) (ready : b.oracle d.points = .ok o)
    (enough : d.k + 1 ≤ d.points.size) (host : Host K) (s : σ) :
    ∃ report, (b.solve host d s).1 = .ok report ∧
      CountsDuplicates d (d.seed.getD host.freshEntropy) report.params := by
  obtain ⟨report, solved, boxed, textbook, trials⟩ :=
    exists_textbook_of_measures separates.nonneg measures ready enough host s
  obtain ⟨_, boxed', spans⟩ := d.box_ok
  obtain rfl : report.params.box = _ := Except.ok.inj (boxed.symm.trans boxed')
  have w_iff (j : ℕ) (trial : Trial K) (found : report.params.trials[j]? = some trial) :
      trial.w = 0 ↔ ∀ row ∈ d.chosen (d.seed.getD host.freshEntropy) j,
        d.k + 1 ≤ d.points.points.count row := by
    rw [trials j trial found]
    exact PointSet.w_trialOver_eq_zero_iff separates enough
      fun row mem => d.points.length_eq row (Design.mem_of_mem_chosen mem)
  have u_iff (j : ℕ) (trial : Trial K) (found : report.params.trials[j]? = some trial) :
      trial.u = 0 ↔ ∀ row ∈ d.placed report.params.box (d.seed.getD host.freshEntropy) j,
        d.k ≤ d.points.points.count row := by
    rw [trials j trial found]
    exact PointSet.u_trialOver_eq_zero_iff separates d.k_pos (by omega)
      fun row mem => length_of_mem_placedRows spans mem
  refine ⟨report, solved, textbook.length, w_iff, u_iff, ?_, ?_, ?_⟩
  · exact fun trial mem => (textbook.trials trial mem).h_eq_one
  · exact fun trial mem => (textbook.trials trial mem).h_eq_zero
  · intro unbounded identical
    have copied {row : List K} (mem : row ∈ d.points.points) :
        d.points.points.count row = d.points.size :=
      List.count_eq_length.2 fun other other_mem => identical row mem other other_mem
    obtain ⟨first, first_mem⟩ := List.exists_mem_of_ne_nil _ d.points.points_ne_nil
    have copies : ∀ other ∈ d.points.points, other = first :=
      fun other other_mem => identical other other_mem first first_mem
    refine textbook.isDegenerate fun trial mem => ?_
    obtain ⟨j, found⟩ := List.mem_iff_getElem?.1 mem
    refine ⟨(u_iff j trial found).2 fun row row_mem => ?_,
      (w_iff j trial found).2 fun row row_mem => ?_⟩
    · rw [Design.eq_of_mem_placed boxed unbounded first_mem copies row_mem, copied first_mem]
      omega
    · rw [copied (Design.mem_of_mem_chosen row_mem)]
      exact enough

/-- Repeated rows count as often as they occur. Take any design with enough points, any entropy, any
oracle that answers with the distances of the ranks by a measure, or the default oracle of any
metric, and let the measure be never negative and vanish between equal points only. Then the run
returns. The sum over the chosen rows of a repetition vanishes if and only if each of them occurs
once more often in the data than the rank of the neighbor says, and the sum over its placed points
if and only if each of them coincides with as many rows as the rank says. Where one of the sums
vanishes alone, the share is one or zero. Over copies of a single row, without bounds, everything
vanishes but the shares, the statistic and the p-value, which are one half. -/
theorem solve_countsDuplicates {σ : Type} (host : Host K) (d : Design K) (s : σ)
    (enough : d.k + 1 ≤ d.points.size) :
    let entropy := d.seed.getD host.freshEntropy
    (∀ (b : Backend σ K) (o : Oracle σ K) (measure : List K → List K → K),
      Separates measure d.points.dim → b.oracle d.points = .ok o →
      o.Measures measure d.points →
      ∃ report, (b.solve host d s).1 = .ok report ∧
        CountsDuplicates d entropy report.params) ∧
    ∀ (metric : Value) (settings : List (String × Value)) (found : Metric),
      Metric.searched metric d.points.dim settings = .ok found →
      Separates (K := K) found.distance d.points.dim →
      ∃ report, ((Backend.processor metric settings).solve host d s).1 = .ok report ∧
        CountsDuplicates d entropy report.params := by
  intro entropy
  refine ⟨?_, ?_⟩
  · intro b o measure separates ready measures
    exact exists_countsDuplicates_of_measures separates measures ready enough host s
  · intro metric settings found searched separates
    obtain ⟨o, ready, measures⟩ := measures_of_searched (σ := σ) searched
    have prepared : (Backend.processor metric settings : Backend σ K).oracle d.points = .ok o :=
      (Backend.oracle_processor metric settings d.points).trans ready
    exact exists_countsDuplicates_of_measures separates measures prepared enough host s

end Runs

/-! ## Runs over four and over two points -/

/-- Sums of absolute differences vanish between equal points only. -/
theorem separates_minkowski_one (dim : ℕ) :
    Separates (Metric.distance (.minkowski 1 none) : List ℚ → List ℚ → ℚ) dim where
  nonneg := minkowskiDistance_nonneg 1
  eq_zero_iff x y x_length y_length := by
    have gaps {acc : ℚ} (nonneg : 0 ≤ acc) (length : x.length = y.length) :
        Metric.foldPairs (fun acc a b => acc + Scalar.abs (a - b)) acc x y = 0 ↔
          acc = 0 ∧ x = y := by
      clear x_length y_length
      induction x generalizing y acc with
      | nil => simp [Metric.foldPairs, List.length_eq_zero_iff.1 length.symm]
      | cons a x ih =>
          cases y with
          | nil => cases length
          | cons b y =>
              have gap_nonneg : 0 ≤ Scalar.abs (a - b) := by simp
              rw [Metric.foldPairs, ih y (add_nonneg nonneg gap_nonneg) (Nat.succ.inj length),
                add_eq_zero_iff_of_nonneg nonneg gap_nonneg, Scalar.Exact.abs_eq, abs_eq_zero,
                sub_eq_zero, List.cons.injEq, and_assoc]
    have distance : Metric.distance (.minkowski 1 none) x y =
        Metric.foldPairs (fun acc a b => acc + Scalar.abs (a - b)) 0 x y :=
      minkowskiDistance_one x y
    rw [distance, gaps le_rfl (x_length.trans y_length.symm)]
    exact and_iff_right rfl

/-- Four points of a line in two places. -/
def twoPairs : PointSet ℚ where
  dim := 1
  points := [[0], [0], [3], [3]]
  dim_pos := Nat.one_pos
  points_ne_nil := List.cons_ne_nil _ _
  length_eq := by simp

/-- Two points of a plane in one place. -/
def onePair : PointSet ℚ where
  dim := 2
  points := [[2, 5], [2, 5]]
  dim_pos := Nat.two_pos
  points_ne_nil := List.cons_ne_nil _ _
  length_eq := by simp

/-- Three repetitions on two of four points. -/
def pairsRun : Design ℚ :=
  { threeRun with points := twoPairs, bounds := none, sampleSize_le := by decide }

/-- Three repetitions on two points in one place. -/
def pairRun : Design ℚ :=
  { threeRun with points := onePair, bounds := none, sampleSize_le := by decide }

/-- Where every point occurs twice, each has another one at distance zero, and every placed point
off the data brings the share to one. Two points in one place leave nothing to compare. -/
theorem solve_countsDuplicates_pairs :
    (∃ report, ((Backend.processor (.text "cityblock") [] : Backend Unit ℚ).solve twoProcessors
        pairsRun ()).1 = .ok report ∧
      ∀ trial ∈ report.params.trials, trial.w = 0 ∧ (0 < trial.u → trial.h = 1)) ∧
    ∃ report, ((Backend.injected (measuringOracle (Metric.distance (.minkowski 1 none)) onePair) :
        Backend Unit ℚ).solve twoProcessors pairRun ()).1 = .ok report ∧
      report.params.IsDegenerate := by
  constructor
  · obtain ⟨report, solved, counts⟩ := (solve_countsDuplicates twoProcessors pairsRun ()
      (by decide)).2 (.text "cityblock") [] _ (searched_cityblock 1) (separates_minkowski_one 1)
    have twice : ∀ row ∈ pairsRun.points.points, 2 ≤ pairsRun.points.points.count row := by
      decide +kernel
    refine ⟨report, solved, fun trial mem => ?_⟩
    obtain ⟨j, found⟩ := List.mem_iff_getElem?.1 mem
    have vanishes : trial.w = 0 := (counts.w_eq_zero_iff j trial found).2
      fun row row_mem => twice row (Design.mem_of_mem_chosen row_mem)
    exact ⟨vanishes, counts.h_eq_one trial mem vanishes⟩
  · obtain ⟨report, solved, counts⟩ := (solve_countsDuplicates twoProcessors pairRun ()
      (by decide)).1 (.injected (measuringOracle (Metric.distance (.minkowski 1 none)) onePair))
      _ _ (separates_minkowski_one 2) rfl (measures_measuringOracle _ onePair)
    exact ⟨report, solved, counts.identical rfl (by decide +kernel)⟩

end PointPattern
