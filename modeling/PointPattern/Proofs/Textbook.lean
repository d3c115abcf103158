/-
# Runs in exact arithmetic

Without rounding, a run whose oracle answers every query with a distance reports the
statistic of its own repetitions as textbooks define it. The numbers of the repetitions are
written one by one, while means and variances are merged from the tallies of the workers and
the p-value is computed from the merged mean; none of this is ever compared. It agrees
because tallies lose nothing, on any number of workers, and because a failure would have to
come from the oracle.
-/

import PointPattern.Proofs.Conduct
import PointPattern.Proofs.Records
import PointPattern.Proofs.Tails
import Mathlib.Tactic.Positivity

namespace PointPattern

open PointPattern.Random

section Exact

variable {σ K : Type} [Field K] [LinearOrder K] [IsStrictOrderedRing K] [Scalar K] [Scalar.Exact K]

/-! ## Repetitions -/

omit [IsStrictOrderedRing K] in
@[simp]
theorem isDistance_iff {x : K} : isDistance x = true ↔ 0 ≤ x := by
  have not_less : Scalar.less x 0 = false ↔ 0 ≤ x := by
    rw [← Bool.not_eq_true, Scalar.Exact.less_iff, not_lt]
  simp [isDistance, not_less]

/-- Powers of distances always have a sum, which is not negative. -/
theorem sumsAs_nonneg : SumsAs (fun _ => False) fun total : K => 0 ≤ total := by
  intro xs dim distances
  have powers : xs.map (Scalar.power · (dim : ℤ)) = xs.map (· ^ dim) := by simp
  rw [aggregate, powers, Scalar.Exact.sum_eq]
  refine .ok (List.sum_nonneg fun y mem => ?_)
  obtain ⟨x, x_mem, rfl⟩ := List.mem_map.1 mem
  have x_nonneg := isDistance_iff.1 (distances x x_mem)
  positivity

/-- A repetition as the textbook has it: two sums, and the share of the first in their
total. -/
structure Trial.IsTextbook (t : Trial K) : Prop where
  u_nonneg : 0 ≤ t.u
  w_nonneg : 0 ≤ t.w
  share : t.h = if t.u = 0 ∧ t.w = 0 then 1 / 2 else t.u / (t.u + t.w)

theorem isTextbook_ofSums {u w : K} (u_nonneg : 0 ≤ u) (w_nonneg : 0 ≤ w) :
    (Trial.ofSums u w).IsTextbook := by
  refine ⟨u_nonneg, w_nonneg, ?_⟩
  have positive_iff : 0 < u + w ↔ ¬(u = 0 ∧ w = 0) := by
    rw [← add_eq_zero_iff_of_nonneg u_nonneg w_nonneg]
    exact (add_nonneg u_nonneg w_nonneg).lt_iff_ne.trans ne_comm
  simp only [Trial.ofSums, Scalar.zero_eq, Scalar.half_eq, Scalar.Exact.less_iff, positive_iff]
  exact ite_not _ _ _

omit [Scalar K] [Scalar.Exact K] in
theorem Trial.IsTextbook.between {t : Trial K} (textbook : t.IsTextbook) : 0 ≤ t.h ∧ t.h ≤ 1 := by
  have u_nonneg := textbook.u_nonneg
  have w_nonneg := textbook.w_nonneg
  rw [textbook.share]
  split_ifs
  · constructor <;> norm_num
  · exact ⟨by positivity, div_le_one_of_le₀ (le_add_of_nonneg_right w_nonneg) (by positivity)⟩

/-- The tallies of the chunks come to the tally of all repetitions in one pass. -/
theorem mergeAll_chunks {count pieces : ℕ} (some_pieces : 0 < pieces) (trials : ℕ → Trial K) :
    Tally.empty.mergeAll ((chunks count pieces).map (List.map trials)) =
      Tally.ofList ((List.range count).map trials) := by
  rw [Tally.mergeAll_eq_ofList, ← List.map_flatten, flatten_chunks some_pieces]

end Exact

/-! ## Variances -/

section Variances

variable {K : Type} [Field K]

/-- The variances of a run are those of its own repetitions. -/
structure Params.OwnVariances (p : Params K) : Prop where
  length : p.trials.length = p.repetitions
  h : p.hVariance = sampleVariance? (p.trials.map (·.h))
  u : p.uVariance = sampleVariance? (p.trials.map (·.u))
  w : p.wVariance = sampleVariance? (p.trials.map (·.w))

namespace Params.OwnVariances

variable {p : Params K}

theorem none_of_single (own : p.OwnVariances) (one : p.repetitions = 1) :
    p.hVariance = none ∧ p.uVariance = none ∧ p.wVariance = none := by
  have single (f : Trial K → K) : sampleVariance? (p.trials.map f) = none := by
    apply sampleVariance_of_single
    rw [List.length_map, own.length, one]
  exact ⟨own.h.trans (single _), own.u.trans (single _), own.w.trans (single _)⟩

variable [LinearOrder K] [IsStrictOrderedRing K]

theorem some_of_several (own : p.OwnVariances) (several : 1 < p.repetitions) :
    ∃ h u w, (0 ≤ h ∧ 0 ≤ u ∧ 0 ≤ w) ∧
      p.hVariance = some h ∧ p.uVariance = some u ∧ p.wVariance = some w := by
  have exist (f : Trial K → K) : ∃ v, 0 ≤ v ∧ sampleVariance? (p.trials.map f) = some v := by
    apply sampleVariance_of_several
    rwa [List.length_map, own.length]
  obtain ⟨h, h_nonneg, h_some⟩ := exist (·.h)
  obtain ⟨u, u_nonneg, u_some⟩ := exist (·.u)
  obtain ⟨w, w_nonneg, w_some⟩ := exist (·.w)
  exact ⟨h, u, w, ⟨h_nonneg, u_nonneg, w_nonneg⟩, own.h.trans h_some, own.u.trans u_some,
    own.w.trans w_some⟩

theorem hasVariances (own : p.OwnVariances) : p.HasVariances := by
  refine ⟨fun several => ?_, fun several => ?_, fun several => ?_⟩
  all_goals
    obtain ⟨h, u, w, -, h_some, u_some, w_some⟩ := own.some_of_several several
    simp only [h_some, u_some, w_some, Option.isSome_some]

variable [Scalar K] [Scalar.Exact K] [Roots K]

omit [IsStrictOrderedRing K] in
theorem deviationOf_of_nonneg {v : K} (nonneg : 0 ≤ v) :
    deviationOf (some v) = .ok (some (Roots.sqrt v)) := by
  have not_less : ¬Scalar.less v Scalar.zero = true := by simpa using nonneg
  rw [deviationOf, Moments.rootOf, if_neg not_less]
  rfl

omit [LinearOrder K] [IsStrictOrderedRing K] [Scalar.Exact K] in
/-- A single repetition has no standard deviations and no records of them. -/
theorem single (own : p.OwnVariances) (one : p.repetitions = 1) :
    p.deviations = .ok (none, none, none) ∧ p.records = .ok (p.recordsWith []) := by
  obtain ⟨h_none, u_none, w_none⟩ := own.none_of_single one
  refine ⟨?_, records_of_single one.le⟩
  rw [deviations, h_none, u_none, w_none]
  rfl

/-- Several repetitions have standard deviations, and they are among the records. -/
theorem several (own : p.OwnVariances) (several : 1 < p.repetitions) :
    ∃ h u w, (0 ≤ h ∧ 0 ≤ u ∧ 0 ≤ w) ∧
      (p.hVariance = some h ∧ p.uVariance = some u ∧ p.wVariance = some w) ∧
      p.deviations = .ok (some (Roots.sqrt h), some (Roots.sqrt u), some (Roots.sqrt w)) ∧
      p.records = .ok (p.recordsWith
        [(recordName "h.std", some (.real (Roots.sqrt h))),
          (recordName "u.std", some (.real (Roots.sqrt u))),
          (recordName "w.std", some (.real (Roots.sqrt w)))]) := by
  obtain ⟨h, u, w, nonneg, h_some, u_some, w_some⟩ := own.some_of_several several
  have roots : p.deviations =
      .ok (some (Roots.sqrt h), some (Roots.sqrt u), some (Roots.sqrt w)) := by
    rw [deviations, h_some, u_some, w_some, deviationOf_of_nonneg nonneg.1,
      deviationOf_of_nonneg nonneg.2.1, deviationOf_of_nonneg nonneg.2.2]
    rfl
  refine ⟨h, u, w, nonneg, ⟨h_some, u_some, w_some⟩, roots, ?_⟩
  rw [records_of_several several, roots]
  rfl

end Params.OwnVariances

end Variances

/-! ## Reports -/

section Report

variable {K : Type} [Field K] [LinearOrder K] [Scalar K] [Roots K] [BetaTails K]

/-- What a textbook says of the numbers of a run: as many repetitions as the design asks for;
the share of each, from zero to one; the arithmetic means, so that the mean share lies between
the smallest and the largest share; the sample variances, none of a single repetition and never
negative, so that they have roots; the p-value of the mean share, which is a tail beyond the
middle; and records without gaps, among them the standard deviations of several repetitions. -/
structure Params.IsTextbook (p : Params K) (d : Design K) : Prop where
  settings : p.sampleSize = d.sampleSize ∧ p.dim = d.points.dim ∧ p.k = d.k ∧
    p.repetitions = d.repetitions
  length : p.trials.length = d.repetitions
  trials : ∀ t ∈ p.trials, t.IsTextbook
  shares : ∀ t ∈ p.trials, 0 ≤ t.h ∧ t.h ≤ 1
  hMean : p.hMean = arithmeticMean (p.trials.map (·.h))
  uMean : p.uMean = arithmeticMean (p.trials.map (·.u))
  wMean : p.wMean = arithmeticMean (p.trials.map (·.w))
  smallest : ∃ t ∈ p.trials, t.h ≤ p.hMean
  largest : ∃ t ∈ p.trials, p.hMean ≤ t.h
  variances : p.OwnVariances
  single : d.repetitions = 1 →
    (p.hVariance = none ∧ p.uVariance = none ∧ p.wVariance = none) ∧
    p.deviations = .ok (none, none, none) ∧ p.records = .ok (p.recordsWith [])
  several : 1 < d.repetitions → ∃ h u w, (0 ≤ h ∧ 0 ≤ u ∧ 0 ≤ w) ∧
    (p.hVariance = some h ∧ p.uVariance = some u ∧ p.wVariance = some w) ∧
    p.deviations = .ok (some (Roots.sqrt h), some (Roots.sqrt u), some (Roots.sqrt w)) ∧
    p.records = .ok (p.recordsWith
      [(recordName "h.std", some (.real (Roots.sqrt h))),
        (recordName "u.std", some (.real (Roots.sqrt u))),
        (recordName "w.std", some (.real (Roots.sqrt w)))])
  complete : ∀ records, p.records = .ok records → ∀ record ∈ records, record.2.isSome = true
  pValue : Significance.pValue p.hMean p.sampleSize = .ok p.pValue
  tail : 0 ≤ p.pValue ∧ p.pValue ≤ 1 / 2

end Report

/-! ## Runs -/

section Runs

variable {σ K : Type} [Field K] [LinearOrder K] [IsStrictOrderedRing K] [Scalar K]
variable [Scalar.Exact K] [Roots K] [BetaTails K] [BetaTails.Exact K]

/-- Repetitions as textbooks have them make such a report, on any number of workers. -/
theorem isTextbook_params (d : Design K) (box : Box K) {workers : ℕ} (some_workers : 0 < workers)
    {trials : ℕ → Trial K} (each : ∀ j < d.repetitions, (trials j).IsTextbook) :
    let summary : Summary K := ⟨(List.range d.repetitions).map trials,
      Tally.empty.mergeAll ((chunks d.repetitions workers).map (List.map trials))⟩
    ∃ pValue, Significance.pValue summary.tally.h.mean d.sampleSize = .ok pValue ∧
      (Backend.params d box summary pValue).IsTextbook d := by
  intro summary
  obtain ⟨pValue, significance, tail⟩ :=
    Significance.pValue_mem d.sampleSize_pos summary.tally.h.mean
  refine ⟨pValue, significance, ?_⟩
  have length : summary.trials.length = d.repetitions := by simp [summary]
  have textbook : ∀ t ∈ summary.trials, t.IsTextbook := by
    intro t mem
    obtain ⟨j, inside, rfl⟩ := List.mem_map.1 mem
    exact each j (List.mem_range.1 inside)
  have tally : summary.tally = ⟨.ofList (summary.trials.map (·.h)),
      .ofList (summary.trials.map (·.u)), .ofList (summary.trials.map (·.w))⟩ :=
    (mergeAll_chunks some_workers trials).trans (Tally.ofList_eq _)
  have hMean : summary.tally.h.mean = arithmeticMean (summary.trials.map (·.h)) := by
    rw [tally, Moments.mean_ofList]
  have some_shares : summary.trials.map (·.h) ≠ [] := by
    rw [← List.length_pos_iff, List.length_map, length]
    exact d.repetitions_pos
  have own : (Backend.params d box summary pValue).OwnVariances := by
    refine ⟨length, ?_, ?_, ?_⟩
    all_goals simp only [Backend.params, tally, Moments.variance_ofList]
  exact {
    settings := ⟨rfl, rfl, rfl, rfl⟩
    length
    trials := textbook
    shares := fun t mem => (textbook t mem).between
    hMean
    uMean := by simp only [Backend.params, tally, Moments.mean_ofList]
    wMean := by simp only [Backend.params, tally, Moments.mean_ofList]
    smallest := by
      obtain ⟨_, mem, le⟩ := exists_le_arithmeticMean some_shares
      obtain ⟨t, t_mem, rfl⟩ := List.mem_map.1 mem
      exact ⟨t, t_mem, le.trans_eq hMean.symm⟩
    largest := by
      obtain ⟨_, mem, le⟩ := exists_arithmeticMean_le some_shares
      obtain ⟨t, t_mem, rfl⟩ := List.mem_map.1 mem
      exact ⟨t, t_mem, hMean.trans_le le⟩
    variances := own
    single := fun one => ⟨own.none_of_single one, own.single one⟩
    several := fun several => own.several several
    complete := fun records published => own.hasVariances.isSome_of_mem_records published
    pValue := significance
    tail }

variable {b : Backend σ K} {d : Design K} {o : Oracle σ K}

omit [Roots K] [BetaTails K] [BetaTails.Exact K] in
/-- An oracle that answers every query leaves nothing that could spoil a repetition. -/
theorem sampled_of_answers (host : Host K) (s : σ) (enough : d.k + 1 ≤ d.points.size)
    (answers : o.Answers d.points.size d.points.dim) :
    ∃ trials : ℕ → Trial K, (∀ j < d.repetitions, (trials j).IsTextbook) ∧
      b.sampled host d o s = .ok ⟨(List.range d.repetitions).map trials,
        Tally.empty.mergeAll
          ((chunks d.repetitions (Backend.workers host d o)).map (List.map trials))⟩ := by
  obtain ⟨summary, sampled, trials, each, rfl⟩ :=
    (Backend.sampled_ends_of_sums (b := b) sumsAs_nonneg (fun _ _ => isTextbook_ofSums) enough host
      s).exists_ok fun e failure => failure.elim id fun unanswered => unanswered.2 answers
  exact ⟨trials, each, sampled⟩

/-- Such a run ends in a report. -/
theorem report_of_answers (host : Host K) (s : σ) (ready : b.oracle d.points = .ok o)
    (enough : d.k + 1 ≤ d.points.size) (answers : o.Answers d.points.size d.points.dim) :
    ∃ report, (b.solve host d s).1 = .ok report ∧ report.params.IsTextbook d := by
  obtain ⟨box, boxed, _⟩ := d.box_ok
  obtain ⟨trials, each, sampled⟩ := sampled_of_answers (b := b) host s enough answers
  obtain ⟨pValue, significance, textbook⟩ :=
    isTextbook_params d box (Backend.workers_pos host) each
  obtain ⟨report, solved, params⟩ :=
    Backend.solve_of_pValue_ok host ready enough boxed sampled significance
  exact ⟨report, solved, params ▸ textbook⟩

/-- Without rounding, a run on an oracle that answers every query with a distance ends in a
report, and the report is the statistic of its own repetitions as textbooks have it. Neither the
number of workers nor what the oracle advertises or remembers matters, and if the workers take
turns in any order that leaves nothing to run, the numbers are such a statistic as well. -/
theorem solve_isTextbook (host : Host K) (b : Backend σ K) (d : Design K) (o : Oracle σ K) (s : σ)
    (ready : b.oracle d.points = .ok o) (enough : d.k + 1 ≤ d.points.size)
    (answers : o.Answers d.points.size d.points.dim) :
    (∃ report, (b.solve host d s).1 = .ok report ∧ report.params.IsTextbook d) ∧
      ∀ (box : Box K) (entropy workers : ℕ) (turns : List ℕ) (s : σ),
        let run := repetition o (streamSource K) (Backend.streamOf entropy) d.points box
          d.sampleSize d.k
        d.box = .ok box → 0 < workers →
        ((Progress.start d.repetitions workers s).runTurns run turns).Settled →
        ∃ summary pValue,
          (runInterleaved run d.repetitions workers turns s).1 = .ok summary ∧
          Significance.pValue summary.tally.h.mean d.sampleSize = .ok pValue ∧
          (Backend.params d box summary pValue).IsTextbook d := by
  refine ⟨report_of_answers host s ready enough answers, ?_⟩
  intro box entropy workers turns s run boxed some_workers settled
  obtain ⟨_, boxed', spans⟩ := d.box_ok
  obtain rfl : box = _ := Except.ok.inj (boxed.symm.trans boxed')
  obtain ⟨_, ran, trials, each, rfl⟩ :=
    (Backend.interleaved_ends_of_sums sumsAs_nonneg (fun _ _ => isTextbook_ofSums) enough spans
      entropy some_workers settled).exists_ok
        fun e failure => failure.elim id fun unanswered => unanswered.2 answers
  obtain ⟨pValue, significance, textbook⟩ := isTextbook_params d box some_workers each
  exact ⟨_, pValue, ran, significance, textbook⟩

end Runs

/-! ## A run of three repetitions -/

/-- An oracle that counts its calls and may be asked by several workers, in blocks. -/
def sharedOracle : Oracle ℕ ℚ := { countingOracle with advertises := some fun _ => true }

theorem answers_sharedOracle (size dim : ℕ) : sharedOracle.Answers size dim where
  single single := by cases single
  block _ points count rank calls shaped _ _ := by
    have subgrids : points.subgrids.length = count := by simp [Grid.subgrids, shaped]
    refine ⟨points.subgrids.map fun point => |point.values.headD 0|, ?_, ?_⟩
    · simp [sharedOracle, countingOracle, Grid.ofPoint, subgrids]
    · intro x mem
      obtain ⟨point, -, rfl⟩ := List.mem_map.1 mem
      exact isDistance_iff.2 (abs_nonneg _)

/-- Three repetitions on two of three points of a line, on as many workers as there are
processors. -/
def threeRun : Design ℚ where
  points := threePoints
  sampleSize := 2
  repetitions := 3
  k := 1
  bounds := none
  seed := some 7
  jobs := -1
  sampleSize_pos := Nat.two_pos
  sampleSize_le := by decide
  repetitions_pos := by decide
  k_pos := Nat.one_pos
  jobs_valid := .inl rfl

theorem box_threeRun : threeRun.box = .ok ⟨[0], [3], .data⟩ := by
  show Box.hull [[0], [1], [3]] = _
  norm_num [Box.hull, Box.ofCorners, Box.lowest, Box.highest, Scalar.min, Scalar.max]

/-- A host with two processors. -/
def twoProcessors : Host ℚ where
  processors := some 2
  clock _ := 0

/-- Two workers share the three repetitions, in whatever order they take turns. -/
theorem solve_isTextbook_threeRun :
    Backend.workers twoProcessors threeRun sharedOracle = 2 ∧
      (∃ report, ((Backend.injected sharedOracle).solve twoProcessors threeRun 0).1 = .ok report ∧
        report.params.IsTextbook threeRun) ∧
      ∃ summary pValue,
        (runInterleaved
          (repetition sharedOracle (streamSource ℚ) (Backend.streamOf 7) threePoints
            ⟨[0], [3], .data⟩ 2 1)
          3 2 [1, 0, 0] 0).1 = .ok summary ∧
        Significance.pValue summary.tally.h.mean 2 = .ok pValue ∧
        (Backend.params threeRun ⟨[0], [3], .data⟩ summary pValue).IsTextbook threeRun := by
  have textbook := solve_isTextbook twoProcessors (.injected sharedOracle) threeRun sharedOracle 0
    rfl (by decide) (answers_sharedOracle _ _)
  refine ⟨by decide, textbook.1, ?_⟩
  exact textbook.2 ⟨[0], [3], .data⟩ 7 2 [1, 0, 0] 0 box_threeRun Nat.two_pos (by decide +kernel)

end PointPattern
