/-
# What comes before publication

A study that fails before anything is published was refused at one of five stages: its design,
the parent of its solution, the choice of a backend, the run, or the records. Up to there only
the oracle and the warnings have changed. A study that gets past all five has a solution whose
numbers are those of a run, and the records of such a run have no gaps: the tallies of the
workers, merged in any kind of number, have counted every repetition.
-/

import PointPattern.Proofs.Conduct
import PointPattern.Proofs.Records
import PointPattern.Study

namespace PointPattern

open PointPattern.Random

/-! ## Variances of a run -/

theorem isSome_variance {K : Type} [Scalar K] [Div K] {m : Moments K} (several : 2 ≤ m.count) :
    m.variance.isSome = true := by
  rw [Moments.variance, if_neg (Nat.not_lt.2 several)]
  rfl

section Variances

variable {σ K : Type} [Add K] [Sub K] [Mul K] [Div K] [Scalar K]
variable {b : Backend σ K} {d : Design K} {o : Oracle σ K} {box : Box K}

/-- The tally of a run has counted every repetition. -/
theorem counts_trials {entropy workers : ℕ} (some_workers : 0 < workers) {s : σ}
    {summary : Summary K} (ran : (Backend.trials o d box entropy workers s).1 = .ok summary) :
    summary.tally.Counts d.repetitions := by
  let run := repetition o (streamSource K) (Backend.streamOf entropy) d.points box d.sampleSize d.k
  have each (j : ℕ) (s : σ) : Ends (fun _ => True) (fun _ => True) (run j s).1 := .trivial _
  have ends := runInterleaved_ends each d.repetitions_pos some_workers
    (settled_runTurns_turnsInOrder run d.repetitions some_workers s)
  obtain ⟨trials, -, rfl⟩ := ends.result ran
  have counts := Tally.counts_empty.mergeAll ((chunks d.repetitions workers).map (List.map trials))
  rwa [← List.map_flatten, flatten_chunks some_workers, List.length_map, List.length_range,
    Nat.zero_add] at counts

omit [Add K] [Sub K] [Mul K] in
/-- With every repetition counted, the numbers of several repetitions have variances. -/
theorem hasVariances_of_counts {summary : Summary K}
    (counts : summary.tally.Counts d.repetitions) (pValue : K) :
    (Backend.params d box summary pValue).HasVariances where
  h several := isSome_variance (several.trans_eq counts.h.symm)
  u several := isSome_variance (several.trans_eq counts.u.symm)
  w several := isSome_variance (several.trans_eq counts.w.symm)

variable [Roots K] [BetaTails K]

theorem hasVariances_of_solve {host : Host K} {s t : σ} {report : Report (Params K) RunInfo K}
    (solved : b.solve host d s = (.ok report, t)) : report.params.HasVariances := by
  obtain ⟨o, box, summary, pValue, -, boxed, -, ran, -, numbers⟩ :=
    Backend.exists_of_solve_eq_ok (congrArg Prod.fst solved)
  rw [Backend.sampled_eq host s boxed] at ran
  rw [numbers]
  exact hasVariances_of_counts (counts_trials (Backend.workers_pos host) ran) pValue

end Variances

/-! ## Stages of a study -/

/-- Without gaps there are numbers behind all records. -/
theorem exists_map_of_isSome {K : Type} {records : List (String × Option (Datum K))}
    (gapless : ∀ record ∈ records, record.2.isSome = true) :
    ∃ numbers : List (String × Datum K),
      records = numbers.map fun number => (number.1, some number.2) := by
  induction records with
  | nil => exact ⟨[], rfl⟩
  | cons record rest ih =>
      obtain ⟨numbers, rfl⟩ := ih fun other mem => gapless other (List.mem_cons_of_mem record mem)
      obtain ⟨number, found⟩ := Option.isSome_iff_exists.1 (gapless record List.mem_cons_self)
      exact ⟨(record.1, number) :: numbers, by rw [List.map_cons, ← found]⟩

namespace Study

variable {σ ν κ K : Type} [Add K] [Sub K] [Mul K] [Div K] [Scalar K] [Roots K] [BetaTails K]

/-- The solution that a report makes, with the warning about the channel if it was issued. -/
def solutionOf (warned : Bool) (seed : Option ℕ) (report : Report (Params K) RunInfo K) :
    Solution K where
  report := { report with
    warnings := if warned then report.warnings ++ [channelClosedWarning] else report.warnings }
  seed

/-- A study runs its design on its backend and makes a solution of the report. -/
theorem solve_eq (host : Host K) (warned : Bool) (b : Backend σ K) (d : Design K) (s : σ) :
    solve host warned b d s =
      ((b.solve host d s).1.map (solutionOf warned d.seed), (b.solve host d s).2) := by
  simp only [solve, Bind.bind, ExceptT.bind, ExceptT.mk, StateT.bind, ExceptT.bindCont]
  rcases b.solve host d s with ⟨e | report, t⟩ <;> rfl

section Stages

variable (host : Host K) (library : Option Accelerators)
variable (onDevice : Device → PointSet K → Oracle σ K) (t : Study σ K)

/-- The solutions that the run of a study can have, whatever warnings come with it. -/
inductive Solves (s : σ) : Solution K → Prop
  | intro {d : Design Float} {b : Backend σ K} {report : Report (Params K) RunInfo K} {s' : σ}
      (resolved : t.resolveDesign = .ok d) (selected : t.choice.select library onDevice = .ok b)
      (solved : b.solve host (d.map Scalar.ofFloat) s = (.ok report, s')) (warned : Bool) :
      Solves s (solutionOf warned d.seed report)

variable [DecidableEq ν]

/-- The stages at which a study is refused, with the error that it ends in. -/
inductive RefusedBy (parent : Node ν) (scene : Scene σ ν κ K) (e : Error) : Prop
  | design (invalid : t.resolveDesign = .error e)
  | parent (absent : checkParent scene.session parent = .error e)
  | backend (unavailable : t.choice.select library onDevice = .error e)
  | solving {d : Design Float} {b : Backend σ K} (resolved : t.resolveDesign = .ok d)
      (selected : t.choice.select library onDevice = .ok b)
      (failed : (b.solve host (d.map Scalar.ofFloat) scene.oracle).1 = .error e)
  | records {solution : Solution K} (solves : t.Solves host library onDevice scene.oracle solution)
      (failed : t.records solution = .error e)

/-- What comes of the stages before publication: a refusal, or a solution with its records. The
channel and the session are left alone. -/
inductive Computes (parent : Node ν) (scene : Scene σ ν κ K) :
    Except Error (Solution K × List (String × Option (Datum K))) × Scene σ ν κ K → Prop
  | refused {e : Error} {scene' : Scene σ ν κ K}
      (cause : t.RefusedBy host library onDevice parent scene e)
      (channel : scene'.channel = scene.channel) (session : scene'.session = scene.session) :
      Computes parent scene (.error e, scene')
  | solved {solution : Solution K} {records : List (String × Option (Datum K))}
      {scene' : Scene σ ν κ K} (present : checkParent scene.session parent = .ok ())
      (solves : t.Solves host library onDevice scene.oracle solution)
      (recorded : t.records solution = .ok records)
      (channel : scene'.channel = scene.channel) (session : scene'.session = scene.session) :
      Computes parent scene (.ok (solution, records), scene')

theorem computes_compute (parent : Node ν) (scene : Scene σ ν κ K) :
    t.Computes host library onDevice parent scene
      (t.compute host library onDevice parent scene) := by
  rw [compute]
  cases resolved : t.resolveDesign with
  | error e => exact .refused (.design resolved) rfl rfl
  | ok d =>
      cases present : checkParent scene.session parent with
      | error e => exact .refused (.parent present) rfl rfl
      | ok _ =>
          cases selected : t.choice.select library onDevice with
          | error e => exact .refused (.backend selected) rfl rfl
          | ok b =>
              simp only [Bind.bind, Except.bind, Pure.pure, Except.pure]
              -- The warning is issued before the run and leaves everything else alone.
              generalize issued : (if t.warns scene.channel = true then
                { scene with warned := channelClosedWarning :: scene.warned }
                else scene) = scene₁
              have oracle : scene₁.oracle = scene.oracle := by
                rw [← issued]; split <;> rfl
              have channel : scene₁.channel = scene.channel := by
                rw [← issued]; split <;> rfl
              have session : scene₁.session = scene.session := by
                rw [← issued]; split <;> rfl
              rw [solve_eq, oracle]
              rcases ran : b.solve host (d.map Scalar.ofFloat) scene.oracle with ⟨e | report, s'⟩
              · exact .refused (.solving resolved selected (congrArg Prod.fst ran)) channel session
              · have solves := Solves.intro resolved selected ran (t.warns scene.channel)
                show Computes _ _ _ _ _ _ (((t.records (solutionOf _ d.seed report)).map
                  fun records => (solutionOf _ d.seed report, records)), { scene₁ with oracle := s' })
                cases recorded : t.records (solutionOf (t.warns scene.channel) d.seed report) with
                | error e => exact .refused (.records solves recorded) channel session
                | ok records => exact .solved present solves recorded channel session

variable {host library onDevice t}

omit [DecidableEq ν] in
/-- The records of a solution have no gaps. -/
theorem Solves.exists_numbers {s : σ} {solution : Solution K}
    {records : List (String × Option (Datum K))}
    (solves : t.Solves host library onDevice s solution)
    (recorded : t.records solution = .ok records) :
    ∃ numbers : List (String × Datum K),
      records = numbers.map fun number => (number.1, some number.2) := by
  have gapless : ∀ record ∈ records, record.2.isSome = true := by
    rw [Study.records] at recorded
    split at recorded
    · obtain ⟨-, -, solved, _⟩ := solves
      exact (hasVariances_of_solve solved).isSome_of_mem_records recorded
    · cases recorded
      intro record mem
      cases mem
  exact exists_map_of_isSome gapless

end Stages

end Study

end PointPattern
