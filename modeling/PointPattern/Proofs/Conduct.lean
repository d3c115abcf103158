/-
# What decides a run

With an oracle at hand a run comes down to its repetitions and to the p-value of their mean
share: the timer and the waits for a device never fail. Whatever every repetition is known to
end in therefore decides the run, and the state of the oracle changes only by the repetitions
and by waiting. An oracle that does not allow for several workers is asked by one.
-/

import PointPattern.Backend
import PointPattern.Proofs.Predrawn
import PointPattern.Proofs.Results
import PointPattern.Proofs.Samples

namespace PointPattern

open PointPattern.Random

theorem keepsWord_streamOf (entropy j : ℕ) : (Backend.streamOf entropy j).KeepsWord :=
  Stream.keepsWord_ofSeed _

namespace Backend

variable {σ K : Type}

/-! ## Workers -/

/-- The number of workers on which a run carries out its repetitions. -/
def workers (host : Host K) (d : Design K) (o : Oracle σ K) : ℕ :=
  (resolveJobs (if isSequential o d.jobs then 1 else d.jobs) d.repetitions host.processors).toNat

variable {b : Backend σ K} {d : Design K} {o : Oracle σ K} {box : Box K}

theorem workers_pos (host : Host K) : 0 < workers host d o := toNat_resolveJobs_pos _ _ _

/-- An oracle that does not advertise that several workers may ask it is asked by one. -/
theorem workers_eq_one (host : Host K) (alone : o.supports .threadSafe = false) :
    workers host d o = 1 := by
  have some_count : (1 : ℤ) ≤ d.repetitions := by exact_mod_cast d.repetitions_pos
  have request : (if isSequential o d.jobs then 1 else d.jobs) = 1 := by
    by_cases one : d.jobs = 1
    · simp [one]
    · simp [isSequential, one, alone]
  rw [workers, request, resolveJobs_one some_count]
  rfl

/-! ## Repetitions -/

variable [Add K] [Sub K] [Mul K] [Div K] [Scalar K]

/-- What the repetitions of a run come to. The device has been waited for six times when they
begin. -/
def sampled (b : Backend σ K) (host : Host K) (d : Design K) (o : Oracle σ K) (s : σ) :
    Except Error (Summary K) := do
  let box ← d.box
  let jobs := resolveJobs (if isSequential o d.jobs then 1 else d.jobs) d.repetitions host.processors
  (trials o d box (d.seed.getD host.freshEntropy) jobs.toNat ((b.await d.points)^[6] s)).1

theorem sampled_eq (host : Host K) (s : σ) (boxed : d.box = .ok box) :
    b.sampled host d o s =
      (trials o d box (d.seed.getD host.freshEntropy) (workers host d o)
        ((b.await d.points)^[6] s)).1 := by
  rw [sampled, boxed]
  rfl

variable {fails : Error → Prop} {good : K → Prop} {goodTrial : Trial K → Prop}

/-- Repetitions that have sums as described end with as many trials as described, or as a sum
or the oracle may fail, in whatever order the workers take their turns. -/
theorem interleaved_ends_of_sums (sums : SumsAs fails good)
    (composed : ∀ u w, good u → good w → goodTrial (Trial.ofSums u w))
    (enough : d.k + 1 ≤ d.points.size) (spans : box.Spans d.points.dim) (entropy : ℕ)
    {pieces : ℕ} (some_pieces : 0 < pieces) {turns : List ℕ} {s : σ}
    (settled : ((Progress.start d.repetitions pieces s).runTurns
      (repetition o (streamSource K) (streamOf entropy) d.points box d.sampleSize d.k)
      turns).Settled) :
    Ends (FailsBy fails o d.points.size d.points.dim)
      (fun summary => ∃ trials : ℕ → Trial K, (∀ j < d.repetitions, goodTrial (trials j)) ∧
        summary = ⟨(List.range d.repetitions).map trials,
          Tally.empty.mergeAll ((chunks d.repetitions pieces).map (List.map trials))⟩)
      (runInterleaved
        (repetition o (streamSource K) (streamOf entropy) d.points box d.sampleSize d.k)
        d.repetitions pieces turns s).1 := by
  apply runInterleaved_ends _ d.repetitions_pos some_pieces settled
  exact repetition_ends_of_sums sums composed d.sampleSize_le spans d.k_pos enough
    (keepsWord_streamOf _)

/-- Workers that run one after the other are a special case. -/
theorem sampled_ends_of_sums (sums : SumsAs fails good)
    (composed : ∀ u w, good u → good w → goodTrial (Trial.ofSums u w))
    (enough : d.k + 1 ≤ d.points.size) (host : Host K) (s : σ) :
    Ends (FailsBy fails o d.points.size d.points.dim)
      (fun summary => ∃ trials : ℕ → Trial K, (∀ j < d.repetitions, goodTrial (trials j)) ∧
        summary = ⟨(List.range d.repetitions).map trials,
          Tally.empty.mergeAll
            ((chunks d.repetitions (workers host d o)).map (List.map trials))⟩)
      (b.sampled host d o s) := by
  obtain ⟨box, boxed, spans⟩ := d.box_ok
  rw [sampled_eq host s boxed]
  exact interleaved_ends_of_sums sums composed enough spans _ (workers_pos host)
    (settled_runTurns_turnsInOrder _ _ (workers_pos host) _)

/-! ## Runs -/

variable [Roots K]

/-- With an oracle at hand, one on a device could be built. -/
theorem checkBuilt_of_oracle {points : PointSet K} (ready : b.oracle points = .ok o) :
    b.checkBuilt points = .ok () := by
  cases b with
  | injected _ => rfl
  | processor _ _ => rfl
  | accelerator _ _ =>
      obtain ⟨_, passed, -⟩ := exists_of_bind_eq_ok ready
      exact passed

/-- An oracle on a device that cannot be built is missed for the same reason. -/
theorem error_of_checkBuilt {points : PointSet K} {e e' : Error}
    (unbuilt : b.checkBuilt points = .error e') (unready : b.oracle points = .error e) :
    e' = e := by
  cases b with
  | injected _ => cases unbuilt
  | processor _ _ => cases unbuilt
  | accelerator _ _ =>
      rw [checkBuilt] at unbuilt
      rw [Backend.oracle, unbuilt] at unready
      exact Except.error.inj unready

variable [BetaTails K]

/-- Where an oracle on a device cannot be built, nothing else happens. -/
theorem solve_of_unbuilt (host : Host K) (s : σ) {e : Error}
    (unbuilt : b.checkBuilt d.points = .error e) : b.solve host d s = (.error e, s) := by
  rw [solve, unbuilt]

/-- Where the points do not have the rank of the real sample, nothing else happens. -/
theorem solve_of_few (host : Host K) (s : σ) (built : b.checkBuilt d.points = .ok ())
    (few : d.points.size < d.k + 1) :
    b.solve host d s =
      (.error (.oracle (.tooFewPoints d.k d.points.size) (some (d.k + 1 : ℕ)) none), s) := by
  rw [solve, built]
  exact if_pos few

/-- With an oracle at hand, a run reports what its repetitions and their p-value give under the
name of its entropy, and apart from the repetitions it changes the state of the oracle only by
waiting. -/
theorem solve_of_oracle (host : Host K) (s : σ) (ready : b.oracle d.points = .ok o)
    (boxed : d.box = .ok box) (enough : d.k + 1 ≤ d.points.size) :
    let entropy := d.seed.getD host.freshEntropy
    let ran := trials o d box entropy (workers host d o) ((b.await d.points)^[6] s)
    ((b.solve host d s).1.map fun report => (report.params, report.info.entropy)) = (do
        let summary ← ran.1
        let pValue ← Significance.pValue summary.tally.h.mean d.sampleSize
        return (params d box summary pValue, entropy)) ∧
      ∃ waits, (b.solve host d s).2 = (b.await d.points)^[waits] ran.2 := by
  have not_fewer : ¬d.points.size < d.k + 1 := Nat.not_lt.2 enough
  simp only [solve, checkBuilt_of_oracle ready, if_neg not_fewer, workers, conduct, Timed.start,
    Timed.within, Timed.read, Timed.ofExcept, Timed.ofStep, ready, boxed, Bind.bind, Except.bind,
    ExceptT.bind, ExceptT.mk, ExceptT.bindCont, StateT.bind]
  have awaits : b.await d.points (b.await d.points (b.await d.points (b.await d.points
      (b.await d.points (b.await d.points s))))) = (b.await d.points)^[6] s := rfl
  rw [awaits]
  generalize trials o d box _ _ _ = ran
  rcases ran with ⟨e | summary, t⟩
  · exact ⟨rfl, 1, rfl⟩
  · dsimp only
    cases Significance.pValue summary.tally.h.mean d.sampleSize with
    | error e => exact ⟨rfl, 3, rfl⟩
    | ok pValue => exact ⟨rfl, 4, rfl⟩

/-- With an oracle at hand, only the repetitions and the p-value decide what a run reports. -/
theorem params_solve (host : Host K) (s : σ) (ready : b.oracle d.points = .ok o)
    (boxed : d.box = .ok box) (enough : d.k + 1 ≤ d.points.size) :
    (b.solve host d s).1.map (·.params) = do
      let summary ← b.sampled host d o s
      let pValue ← Significance.pValue summary.tally.h.mean d.sampleSize
      return params d box summary pValue := by
  have reported := (solve_of_oracle host s ready boxed enough).1
  have first : (b.solve host d s).1.map (·.params) =
      ((b.solve host d s).1.map fun report => (report.params, report.info.entropy)).map
        Prod.fst := by
    cases (b.solve host d s).1 <;> rfl
  rw [first, reported, sampled_eq host s boxed]
  cases (trials o d box _ _ _).1 with
  | error e => rfl
  | ok summary =>
      dsimp only [Bind.bind, Except.bind]
      cases Significance.pValue summary.tally.h.mean d.sampleSize <;> rfl

/-- A run changes the state of the oracle by its repetitions and by waiting, however it
ends. -/
theorem solve_snd (host : Host K) (s : σ) (ready : b.oracle d.points = .ok o)
    (boxed : d.box = .ok box) (enough : d.k + 1 ≤ d.points.size) :
    ∃ waits, (b.solve host d s).2 = (b.await d.points)^[waits]
      (trials o d box (d.seed.getD host.freshEntropy) (workers host d o)
        ((b.await d.points)^[6] s)).2 :=
  (solve_of_oracle host s ready boxed enough).2

/-- Without an oracle there is no run. -/
theorem solve_of_oracle_error (host : Host K) (s : σ) {e : Error}
    (unready : b.oracle d.points = .error e) (enough : d.k + 1 ≤ d.points.size) :
    (b.solve host d s).1 = .error e := by
  cases built : b.checkBuilt d.points with
  | error e' =>
      obtain rfl : e' = e := error_of_checkBuilt built unready
      rw [solve_of_unbuilt host s built]
  | ok =>
      simp only [solve, built, if_neg (Nat.not_lt.2 enough), conduct, Timed.start, Timed.within,
        Timed.read, Timed.ofExcept, unready, Bind.bind, ExceptT.bind, ExceptT.mk,
        ExceptT.bindCont, StateT.bind]
      rfl

/-- What lies behind a report. -/
theorem exists_of_solve_eq_ok {host : Host K} {s : σ} {report : Report (Params K) RunInfo K}
    (solved : (b.solve host d s).1 = .ok report) :
    ∃ o box summary pValue, b.oracle d.points = .ok o ∧ d.box = .ok box ∧
      d.k + 1 ≤ d.points.size ∧ b.sampled host d o s = .ok summary ∧
      Significance.pValue summary.tally.h.mean d.sampleSize = .ok pValue ∧
      report.params = params d box summary pValue := by
  have built : b.checkBuilt d.points = .ok () := by
    cases built : b.checkBuilt d.points with
    | error e =>
        rw [solve_of_unbuilt host s built] at solved
        cases solved
    | ok => rfl
  rcases Nat.lt_or_ge d.points.size (d.k + 1) with few | enough
  · rw [solve_of_few host s built few] at solved
    cases solved
  obtain ⟨box, boxed, -⟩ := d.box_ok
  cases ready : b.oracle d.points with
  | error e =>
      rw [solve_of_oracle_error host s ready enough] at solved
      cases solved
  | ok o =>
      have reported := params_solve host s ready boxed enough
      rw [solved] at reported
      obtain ⟨summary, ran, reported⟩ := exists_of_bind_eq_ok reported.symm
      obtain ⟨pValue, significance, reported⟩ := exists_of_bind_eq_ok reported
      exact ⟨o, box, summary, pValue, rfl, boxed, enough, ran, significance,
        (Except.ok.inj reported).symm⟩

/-- A report names the entropy of its run. -/
theorem entropy_of_solve {host : Host K} {s : σ} {report : Report (Params K) RunInfo K}
    (solved : (b.solve host d s).1 = .ok report) :
    report.info.entropy = d.seed.getD host.freshEntropy := by
  obtain ⟨o, box, summary, pValue, ready, boxed, enough, ran, significance, -⟩ :=
    exists_of_solve_eq_ok solved
  have reported := (solve_of_oracle host s ready boxed enough).1
  rw [sampled_eq host s boxed] at ran
  rw [solved, ran] at reported
  dsimp only [Bind.bind, Except.bind] at reported
  rw [significance] at reported
  exact congrArg Prod.snd (Except.ok.inj reported)

variable {summary : Summary K} {e : Error} {pValue : K}

/-- A failure of the repetitions ends the run. -/
theorem solve_of_sampled_error (host : Host K) {s : σ} (ready : b.oracle d.points = .ok o)
    (enough : d.k + 1 ≤ d.points.size) (boxed : d.box = .ok box)
    (ran : b.sampled host d o s = .error e) : (b.solve host d s).1 = .error e := by
  have reported := params_solve host s ready boxed enough
  rw [ran] at reported
  exact error_of_map reported

/-- A failure of the p-value ends the run. -/
theorem solve_of_pValue_error (host : Host K) {s : σ} (ready : b.oracle d.points = .ok o)
    (enough : d.k + 1 ≤ d.points.size) (boxed : d.box = .ok box)
    (ran : b.sampled host d o s = .ok summary)
    (significance : Significance.pValue summary.tally.h.mean d.sampleSize = .error e) :
    (b.solve host d s).1 = .error e := by
  have reported := params_solve host s ready boxed enough
  rw [ran] at reported
  dsimp only [Bind.bind, Except.bind] at reported
  rw [significance] at reported
  exact error_of_map reported

/-- Repetitions and a p-value make a report. -/
theorem solve_of_pValue_ok (host : Host K) {s : σ} (ready : b.oracle d.points = .ok o)
    (enough : d.k + 1 ≤ d.points.size) (boxed : d.box = .ok box)
    (ran : b.sampled host d o s = .ok summary)
    (significance : Significance.pValue summary.tally.h.mean d.sampleSize = .ok pValue) :
    ∃ report, (b.solve host d s).1 = .ok report ∧
      report.params = params d box summary pValue := by
  have reported := params_solve host s ready boxed enough
  rw [ran] at reported
  dsimp only [Bind.bind, Except.bind] at reported
  rw [significance] at reported
  exact ok_of_map reported

end Backend

end PointPattern
