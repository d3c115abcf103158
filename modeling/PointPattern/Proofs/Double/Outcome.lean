/-
# What a run in doubles comes to

A run should end in a report whose shares and whose mean lie between zero and one, or in a
failure of an oracle that does not answer. It does so exactly if the sums of the sampled
points stay in the range of doubles. Where a sum of finite numbers leaves the range, the run
ends in that failure as it stands. Where the sum over uniform points is infinite, the share
is infinity over infinity, the mean is spoiled, and the run ends in a complaint about the
argument of the p-value. Both happen after sampling, for reasons that no check of the design
has looked for.
-/

import PointPattern.Proofs.Conduct
import PointPattern.Proofs.Double.Means
import PointPattern.Proofs.Double.Trials

namespace PointPattern

open PointPattern.Random Double

/-! ## The p-value -/

namespace Significance

variable {x : Float} {n : ℕ}

/-- What is not a number has no p-value. -/
theorem pValue_of_isNaN (nan : x.isNaN = true) (n : ℕ) :
    pValue x n = .error (.invalid .evaluationPointNaN) := if_pos nan

/-- A share has a p-value. -/
theorem pValue_of_isShare (share : IsShare x) (some_points : 1 ≤ n)
    (finite : (Float.ofNat n).isFinite = true) : ∃ p, pValue x n = .ok p := by
  have shape : isShape (Scalar.ofNat n : Float) = true := by
    have one_le : 1 ≤ real (.ofNat n) := by
      have := le_real_ofNat (show 1 < 2 ^ 53 by norm_num) some_points finite
      rwa [Nat.cast_one] at this
    have positive := (less_zero_iff finite).2 (zero_lt_one.trans_le one_le)
    rw [isShape, Bool.and_eq_true]
    exact ⟨positive, finite⟩
  have number : ¬Scalar.isNaN x = true := by
    intro nan
    have finite := share.finite
    rw [isFinite_eq, isNaN_iff.1 nan] at finite
    cases finite
  simp only [pValue, regularizedBeta, if_neg number, shape, Bool.not_true, Bool.false_eq_true,
    if_false]
  split
  · exact ⟨_, rfl⟩
  · exact ⟨_, rfl⟩

end Significance

/-! ## What is promised and what is kept -/

section Promise

variable {σ : Type} {b : Backend σ Float} {d : Design Float} {o : Oracle σ Float}

/-- What is promised of a run: a report whose shares and whose mean lie between zero and one,
unless the oracle fails and leaves a query without a distance. -/
def Promised (o : Oracle σ Float) (d : Design Float) :
    Except Error (Report (Params Float) RunInfo Float) → Prop :=
  Ends (fun e => e.IsOracleFailure ∧ ¬o.Answers d.points.size d.points.dim) fun report =>
    (∀ t ∈ report.params.trials, 0 ≤ t.h ∧ t.h ≤ 1) ∧
      0 ≤ report.params.hMean ∧ report.params.hMean ≤ 1

/-- No sum of finite numbers leaves the range, and every sum over uniform points is finite. -/
def StaysInRange : Except Error (Summary Float) → Prop :=
  Ends (· ≠ sumOverflow) fun summary => ∀ t ∈ summary.trials, t.u.isFinite = true

/-- What is known of the repetitions of a design: they are decided by their sums, and their
tallies have the mean of the shares. -/
structure Summary.Sound (summary : Summary Float) : Prop where
  decided : ∀ t ∈ summary.trials, t.Decided
  averages : Averages summary.tally.h (summary.trials.map (·.h))

theorem sampled_ends (host : Host Float) (s : σ) (enough : d.k + 1 ≤ d.points.size)
    (repetitions : (Float.ofNat d.repetitions).isFinite = true) :
    Ends (MayFail o d.points.size d.points.dim) Summary.Sound (b.sampled host d o s) := by
  apply (Backend.sampled_ends_of_sums sumsAs_nonNeg (fun _ _ => decided_ofSums) enough host
    s).mono (fun _ => id)
  rintro _ ⟨trials, decided, rfl⟩
  refine ⟨?_, ?_⟩
  · intro t mem
    obtain ⟨j, inside, rfl⟩ := List.mem_map.1 mem
    exact decided j (List.mem_range.1 inside)
  · rw [List.map_map]
    exact averages_mergeAll_chunks (Backend.workers_pos host) repetitions trials

/-- Sums that stay in range give a report on these repetitions, with a mean between zero and
one. -/
theorem report_of_finite (host : Host Float) {s : σ} {summary : Summary Float}
    (ready : b.oracle d.points = .ok o) (enough : d.k + 1 ≤ d.points.size)
    (size : (Float.ofNat d.sampleSize).isFinite = true)
    (ran : b.sampled host d o s = .ok summary) (sound : summary.Sound)
    (finite : ∀ t ∈ summary.trials, t.u.isFinite = true) :
    ∃ report, (b.solve host d s).1 = .ok report ∧ report.params.trials = summary.trials ∧
      0 ≤ report.params.hMean ∧ report.params.hMean ≤ 1 := by
  obtain ⟨box, boxed, _⟩ := d.box_ok
  have mean : IsShare summary.tally.h.mean := by
    apply sound.averages.share
    intro x mem
    obtain ⟨t, t_mem, rfl⟩ := List.mem_map.1 mem
    exact (sound.decided t t_mem).share (finite t t_mem)
  obtain ⟨pValue, significance⟩ :=
    Significance.pValue_of_isShare mean d.sampleSize_pos size
  obtain ⟨report, result, params⟩ :=
    Backend.solve_of_pValue_ok host ready enough boxed ran significance
  refine ⟨report, result, ?_⟩
  rw [params]
  exact ⟨rfl, mean.between⟩

/-- Sums that stay in range give a report that keeps the promise. -/
theorem promised_of_finite (host : Host Float) {s : σ} {summary : Summary Float}
    (ready : b.oracle d.points = .ok o) (enough : d.k + 1 ≤ d.points.size)
    (size : (Float.ofNat d.sampleSize).isFinite = true)
    (ran : b.sampled host d o s = .ok summary) (sound : summary.Sound)
    (finite : ∀ t ∈ summary.trials, t.u.isFinite = true) :
    Promised o d (b.solve host d s).1 := by
  obtain ⟨report, result, trials, mean⟩ :=
    report_of_finite host ready enough size ran sound finite
  rw [result]
  refine .ok ⟨fun t mem => ?_, mean⟩
  rw [trials] at mem
  exact ((sound.decided t mem).share (finite t mem)).between

/-- An infinite sum over uniform points ends the run in a complaint about the p-value. -/
theorem solve_of_infinite (host : Host Float) {s : σ} {summary : Summary Float}
    (ready : b.oracle d.points = .ok o) (enough : d.k + 1 ≤ d.points.size)
    (ran : b.sampled host d o s = .ok summary) (sound : summary.Sound)
    (infinite : ∃ t ∈ summary.trials, t.u.isFinite = false) :
    (b.solve host d s).1 = .error (.invalid .evaluationPointNaN) := by
  obtain ⟨box, boxed, _⟩ := d.box_ok
  obtain ⟨t, mem, t_infinite⟩ := infinite
  have mean_nan : summary.tally.h.mean.isNaN = true :=
    sound.averages.nan ⟨t.h, List.mem_map_of_mem mem, (sound.decided t mem).nan t_infinite⟩
  exact Backend.solve_of_pValue_error host ready enough boxed ran
    (Significance.pValue_of_isNaN mean_nan d.sampleSize)

theorem not_promised {e : Error} (other : e.family? ≠ some .oracleFailure) :
    ¬Promised o d (.error e) := by
  intro promised
  cases promised with
  | error failure => exact other failure.1

/-- A run keeps its promise exactly if its sums stay in the range of doubles. A sum of finite
numbers that leaves the range is the failure of the run as it stands, and so is the complaint
about the mean if the sum over the uniform points of some repetition is infinite. This holds
of every backend, every oracle, with or without a memory, and every number of workers. -/
theorem solve_promised_iff (host : Host Float) (b : Backend σ Float) (d : Design Float)
    (o : Oracle σ Float) (s : σ) (ready : b.oracle d.points = .ok o)
    (enough : d.k + 1 ≤ d.points.size) (size : (Float.ofNat d.sampleSize).isFinite = true)
    (repetitions : (Float.ofNat d.repetitions).isFinite = true) :
    (Promised o d (b.solve host d s).1 ↔ StaysInRange (b.sampled host d o s)) ∧
      (b.sampled host d o s = .error sumOverflow → (b.solve host d s).1 = .error sumOverflow) ∧
      ∀ summary, b.sampled host d o s = .ok summary →
        (∃ t ∈ summary.trials, t.u.isFinite = false) →
          (b.solve host d s).1 = .error (.invalid .evaluationPointNaN) := by
  obtain ⟨box, boxed, _⟩ := d.box_ok
  have ends := sampled_ends (b := b) (o := o) host s enough repetitions
  have overflow (ran : b.sampled host d o s = .error sumOverflow) :
      (b.solve host d s).1 = .error sumOverflow :=
    Backend.solve_of_sampled_error host ready enough boxed ran
  have sound {summary : Summary Float} (ran : b.sampled host d o s = .ok summary) :
      summary.Sound := by
    rw [ran] at ends
    cases ends with
    | ok result => exact result
  have infinite {summary : Summary Float} (ran : b.sampled host d o s = .ok summary) :=
    solve_of_infinite host ready enough ran (sound ran)
  refine ⟨⟨fun promised => ?_, fun in_range => ?_⟩, overflow, fun summary => infinite⟩
  · cases ran : b.sampled host d o s with
    | error e =>
        refine .error ?_
        rintro rfl
        rw [overflow ran] at promised
        exact not_promised (by decide) promised
    | ok summary =>
        refine .ok fun t mem => ?_
        by_contra not_finite
        rw [infinite ran ⟨t, mem, by simpa using not_finite⟩] at promised
        exact not_promised (by decide) promised
  · cases ran : b.sampled host d o s with
    | error e =>
        rw [ran] at in_range ends
        cases in_range with
        | error kept =>
            cases ends with
            | error failure =>
                rw [Backend.solve_of_sampled_error host ready enough boxed ran]
                exact .error (failure.resolve_left kept)
    | ok summary =>
        rw [ran] at in_range
        cases in_range with
        | ok finite => exact promised_of_finite host ready enough size ran (sound ran) finite

end Promise

/-! ## Runs with constant answers -/

/-- An oracle that gives the same distance to every query. -/
def constantOracle (x : Float) : Oracle Unit Float where
  label := "ConstantOracle"
  distance _ _ := pure x
  distances points _ := pure (.ofPoint (points.subgrids.map fun _ => x))

theorem answers_constantOracle {x : Float} (distance : isDistance x = true) (size dim : ℕ) :
    (constantOracle x).Answers size dim where
  single _ _ _ _ _ _ _ := ⟨x, rfl, distance⟩
  block batch := by cases batch

/-- Three points of the plane. -/
def planePoints : PointSet Float where
  dim := 2
  points := [[0, 0], [1, 1], [2, 3]]
  dim_pos := Nat.two_pos
  points_ne_nil := List.cons_ne_nil _ _
  length_eq := by simp

/-- Three points of a line. -/
def linePoints : PointSet Float where
  dim := 1
  points := [[0], [1], [2]]
  dim_pos := Nat.one_pos
  points_ne_nil := List.cons_ne_nil _ _
  length_eq := by simp

/-- One repetition on the nearest neighbors of a sample, with a seed of one. -/
def singleRun (points : PointSet Float) (sampleSize : ℕ) (pos : 1 ≤ sampleSize)
    (le : sampleSize ≤ points.size) : Design Float where
  points
  sampleSize
  repetitions := 1
  k := 1
  bounds := none
  seed := some 1
  jobs := 1
  sampleSize_pos := pos
  sampleSize_le := le
  repetitions_pos := le_rfl
  k_pos := le_rfl
  jobs_valid := .inr le_rfl

/-- A sample of one point of the plane. -/
def planeRun : Design Float := singleRun planePoints 1 le_rfl (by decide)

/-- A sample of two points of a line. -/
def lineRun : Design Float := singleRun linePoints 2 (by decide) (by decide)

/-- A host whose clock stands still. -/
def stillHost : Host Float := { clock := fun _ => Scalar.zero }

/-- A run with answers of one half keeps its promise. -/
theorem solve_promised_iff_planeRun :
    let o := constantOracle Scalar.half
    (Backend.injected o).oracle planeRun.points = .ok o ∧
      planeRun.k + 1 ≤ planeRun.points.size ∧
      (Float.ofNat planeRun.sampleSize).isFinite = true ∧
      (Float.ofNat planeRun.repetitions).isFinite = true ∧
      Promised o planeRun ((Backend.injected o).solve stillHost planeRun ()).1 := by
  intro o
  have size : (Float.ofNat planeRun.sampleSize).isFinite = true := by decide +kernel
  have kept : StaysInRange ((Backend.injected o).sampled stillHost planeRun o ()) := by
    have finite : ((Backend.injected o).sampled stillHost planeRun o ()).toOption.any
        (fun summary => summary.trials.all (·.u.isFinite)) = true := by decide +kernel
    cases ran : (Backend.injected o).sampled stillHost planeRun o () with
    | error e =>
        rw [ran] at finite
        cases finite
    | ok summary =>
        rw [ran] at finite
        exact .ok (List.all_eq_true.1 finite)
  exact ⟨rfl, by decide, size, size,
    (solve_promised_iff stillHost (.injected o) planeRun o () rfl (by decide) size size).1.2 kept⟩

/-- Answers whose squares are infinite. -/
def farOracle : Oracle Unit Float := constantOracle 1e200

/-- Answers of which no two have a sum. -/
def endOracle : Oracle Unit Float := constantOracle 1e308

theorem answers_farOracle (size dim : ℕ) : farOracle.Answers size dim :=
  answers_constantOracle (by decide +kernel) size dim

theorem answers_endOracle (size dim : ℕ) : endOracle.Answers size dim :=
  answers_constantOracle (by decide +kernel) size dim

theorem solve_farOracle :
    ((Backend.injected farOracle).solve stillHost planeRun ()).1 =
      .error (.invalid .evaluationPointNaN) := by
  let b := Backend.injected farOracle
  have ends := sampled_ends (b := b) (d := planeRun) (o := farOracle) stillHost () (by decide)
    real_one.1
  have infinite : (b.sampled stillHost planeRun farOracle ()).toOption.any
      (fun summary => summary.trials.any (!·.u.isFinite)) = true := by decide +kernel
  cases ran : b.sampled stillHost planeRun farOracle () with
  | error e =>
      rw [ran] at infinite
      cases infinite
  | ok summary =>
      rw [ran] at ends infinite
      have some_infinite : summary.trials.any (!·.u.isFinite) = true := infinite
      cases ends with
      | ok sound =>
          exact solve_of_infinite stillHost rfl (by decide) ran sound
            (by simpa using some_infinite)

theorem solve_endOracle :
    ((Backend.injected endOracle).solve stillHost lineRun ()).1 = .error sumOverflow := by
  let b := Backend.injected endOracle
  have ends := sampled_ends (b := b) (d := lineRun) (o := endOracle) stillHost () (by decide)
    real_one.1
  have fails : (b.sampled stillHost lineRun endOracle ()).toOption.isNone = true := by
    decide +kernel
  obtain ⟨box, boxed, _⟩ := lineRun.box_ok
  cases ran : b.sampled stillHost lineRun endOracle () with
  | ok summary =>
      rw [ran] at fails
      cases fails
  | error e =>
      obtain rfl := (ends.failure ran).resolve_right
        fun unanswered => unanswered.2 (answers_endOracle _ _)
      exact Backend.solve_of_sampled_error stillHost rfl (by decide) boxed ran

/-- Distances may break the promise. In the plane the squares of large distances are infinite,
and the run complains of the mean; on a line two distances near the end of the range have no
sum. -/
theorem answers_and_not_promised :
    (farOracle.Answers planeRun.points.size planeRun.points.dim ∧
        ((Backend.injected farOracle).solve stillHost planeRun ()).1 =
          .error (.invalid .evaluationPointNaN) ∧
        ¬Promised farOracle planeRun
          ((Backend.injected farOracle).solve stillHost planeRun ()).1) ∧
      endOracle.Answers lineRun.points.size lineRun.points.dim ∧
        ((Backend.injected endOracle).solve stillHost lineRun ()).1 = .error sumOverflow ∧
        ¬Promised endOracle lineRun
          ((Backend.injected endOracle).solve stillHost lineRun ()).1 := by
  refine ⟨⟨answers_farOracle _ _, solve_farOracle, ?_⟩, answers_endOracle _ _, solve_endOracle, ?_⟩
  · rw [solve_farOracle]
    exact not_promised (by decide)
  · rw [solve_endOracle]
    exact not_promised (by decide)

end PointPattern
