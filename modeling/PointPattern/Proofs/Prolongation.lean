/-
# Runs of more repetitions

A repetition starts the stream of its own number and looks at nothing that another one leaves
behind. A run of more repetitions is therefore a run of fewer that goes on: it has the same
numbers in the places that both have, and it ends in the same failure if one of the common
repetitions fails. How many workers share the repetitions, and in which order they take turns, may
differ between the two runs.
-/

import PointPattern.Proofs.Conduct
import PointPattern.Proofs.Scheduling

namespace PointPattern

open PointPattern.Random

variable {σ K : Type}

/-! ## What a run tells -/

/-- How a run ends whose repetitions do not depend on the state: in the failure of the first
repetition that fails, or with what every repetition gives. -/
inductive Tells (run : ℕ → Step σ (Trial K)) (count : ℕ) : Except Error (Summary K) → Prop
  | failed {j : ℕ} {e : Error} (inside : j < count) (fails : ∀ t, (run j t).1 = .error e)
      (first : ∀ i < j, ∃ trial, ∀ t, (run i t).1 = .ok trial) : Tells run count (.error e)
  | finished {summary : Summary K} (complete : summary.trials.length = count)
      (each : ∀ j trial, summary.trials[j]? = some trial → ∀ t, (run j t).1 = .ok trial) :
      Tells run count (.ok summary)

/-- How a run of more repetitions ends, next to a run of fewer: a common repetition fails, and
both end in its failure; or only a later one fails; or the longer run has the numbers of the
shorter one in the same places, and each is what its repetition gives in every state. -/
inductive Prolongs (run : ℕ → Step σ (Trial K)) (count count' : ℕ) :
    Except Error (Summary K) → Except Error (Summary K) → Prop
  | failed {j : ℕ} {e : Error} (inside : j < count) (fails : ∀ t, (run j t).1 = .error e) :
      Prolongs run count count' (.error e) (.error e)
  | stopped {summary : Summary K} {j : ℕ} {e : Error} (later : count ≤ j) (inside : j < count')
      (fails : ∀ t, (run j t).1 = .error e) : Prolongs run count count' (.ok summary) (.error e)
  | finished {summary summary' : Summary K} (complete : summary'.trials.length = count')
      (same : summary'.trials.take count = summary.trials)
      (each : ∀ j trial, summary'.trials[j]? = some trial → ∀ t, (run j t).1 = .ok trial) :
      Prolongs run count count' (.ok summary) (.ok summary')

section Compare

variable {run : ℕ → Step σ (Trial K)} {count count' : ℕ}
variable {ended ended' : Except Error (Summary K)}

theorem Tells.exists_of_lt {summary : Summary K} (tells : Tells run count (.ok summary)) {j : ℕ}
    (inside : j < count) :
    ∃ trial, summary.trials[j]? = some trial ∧ ∀ t, (run j t).1 = .ok trial := by
  cases tells with
  | finished complete each =>
      have found := List.getElem?_eq_getElem (complete ▸ inside : j < summary.trials.length)
      exact ⟨_, found, each j _ found⟩

/-- Two runs that tell of the same repetitions do not contradict each other. -/
theorem Tells.prolongs (le : count ≤ count') (s : σ) (tells : Tells run count ended)
    (tells' : Tells run count' ended') : Prolongs run count count' ended ended' := by
  have not_both {j : ℕ} {e : Error} {trial : Trial K} (fails : ∀ t, (run j t).1 = .error e)
      (gives : ∀ t, (run j t).1 = .ok trial) : False := by
    cases (fails s).symm.trans (gives s)
  cases tells with
  | @failed j e inside fails first =>
      cases tells' with
      | @failed j' e' inside' fails' first' =>
          rcases Nat.lt_trichotomy j j' with before | rfl | after
          · obtain ⟨trial, gives⟩ := first' j before
            exact (not_both fails gives).elim
          · cases (fails s).symm.trans (fails' s)
            exact .failed inside fails
          · obtain ⟨trial, gives⟩ := first j' after
            exact (not_both fails' gives).elim
      | finished complete' each' =>
          obtain ⟨trial, -, gives⟩ :=
            (Tells.finished complete' each').exists_of_lt (Nat.lt_of_lt_of_le inside le)
          exact (not_both fails gives).elim
  | @finished summary complete each =>
      have tells := Tells.finished complete each
      cases tells' with
      | @failed j' e' inside' fails' first' =>
          refine .stopped (Nat.not_lt.1 fun inside => ?_) inside' fails'
          obtain ⟨trial, -, gives⟩ := tells.exists_of_lt inside
          exact not_both fails' gives
      | @finished summary' complete' each' =>
          refine .finished complete' (List.ext_getElem? fun j => ?_) each'
          rw [List.getElem?_take]
          split
          · next inside =>
              obtain ⟨trial, found, gives⟩ := tells.exists_of_lt inside
              obtain ⟨trial', found', gives'⟩ :=
                (Tells.finished complete' each').exists_of_lt (Nat.lt_of_lt_of_le inside le)
              rw [found, found']
              exact congrArg some (Except.ok.inj ((gives' s).symm.trans (gives s)))
          · next outside => exact (List.getElem?_eq_none (complete ▸ Nat.not_lt.1 outside)).symm

end Compare

section Outcomes

variable {run : ℕ → Step σ (Trial K)} {outcome : ℕ → Except Error (Trial K)} {count : ℕ}
variable {ended : Except Error (Summary K)}

/-- A run that finishes has the results of its repetitions in their places. -/
theorem Tells.outcome_eq {summary : Summary K} (tells : Tells run count (.ok summary))
    (ends : EndsAs run outcome) (s : σ) :
    summary.trials.length = count ∧
      ∀ j trial, summary.trials[j]? = some trial → outcome j = .ok trial := by
  cases tells with
  | finished complete each =>
      exact ⟨complete, fun j trial found => (ends j s).symm.trans (each j trial found s)⟩

/-- A run finishes if all repetitions have results. -/
theorem Tells.exists_ok (tells : Tells run count ended) (ends : EndsAs run outcome)
    (complete : ∀ j < count, ∃ trial, outcome j = .ok trial) (s : σ) :
    ∃ summary, ended = .ok summary := by
  cases tells with
  | failed inside fails first =>
      obtain ⟨trial, gives⟩ := complete _ inside
      cases (fails s).symm.trans ((ends _ s).trans gives)
  | finished complete each => exact ⟨_, rfl⟩

/-- A run fails as all of its repetitions do. -/
theorem Tells.eq_error {e : Error} (tells : Tells run count ended) (ends : EndsAs run outcome)
    (some_count : 0 < count) (fail : ∀ j, outcome j = .error e) (s : σ) : ended = .error e := by
  cases tells with
  | failed inside fails first =>
      cases (fails s).symm.trans ((ends _ s).trans (fail _))
      rfl
  | finished complete each =>
      obtain ⟨trial, -, gives⟩ := (Tells.finished complete each).exists_of_lt some_count
      cases (gives s).symm.trans ((ends 0 s).trans (fail 0))

end Outcomes

section Runs

variable [Add K] [Sub K] [Mul K] [Div K] [Scalar K]

/-- Whatever turns the workers take, a run tells of its repetitions. -/
theorem EndsAs.tells {run : ℕ → Step σ (Trial K)} {outcome : ℕ → Except Error (Trial K)}
    (ends : EndsAs run outcome) {count workers : ℕ} {turns : List ℕ} (some_count : 0 < count)
    (some_workers : 0 < workers) {s : σ}
    (settled : ((Progress.start count workers s).runTurns run turns).Settled) :
    Tells run count (runInterleaved run count workers turns s).1 := by
  have agree : Agree (fun _ _ => True) run count workers turns s (runTrials run count 1 s).1 :=
    ends.agree (fun _ _ _ => trivial) some_count some_workers s s settled
  cases agree with
  | failed inside fails first several one => exact several ▸ .failed inside fails first
  | finished several one counts counts' alike complete written =>
      exact several ▸ .finished complete fun j trial found => (written j trial found).1

/-- On as many workers a run ends in the same way from every state, tallies included, in whatever
order the workers take their turns. -/
theorem EndsAs.runInterleaved_eq {run : ℕ → Step σ (Trial K)}
    {outcome : ℕ → Except Error (Trial K)} (ends : EndsAs run outcome) {count workers : ℕ}
    {turns turns' : List ℕ} (some_count : 0 < count) (some_workers : 0 < workers) {s s' : σ}
    (settled : ((Progress.start count workers s).runTurns run turns).Settled)
    (settled' : ((Progress.start count workers s').runTurns run turns').Settled) :
    (runInterleaved run count workers turns s).1 =
      (runInterleaved run count workers turns' s').1 := by
  show ((Progress.start count workers s).runTurns run turns).collect =
    ((Progress.start count workers s').runTurns run turns').collect
  cases found : (List.range count).findSome? (failureOf outcome) with
  | some e =>
      rw [Progress.collect_of_failure ends some_workers found settled,
        Progress.collect_of_failure ends some_workers found settled']
  | none =>
      obtain ⟨trials, complete⟩ := exists_trials some_count found
      rw [Progress.collect_of_settled ends some_workers complete settled,
        Progress.collect_of_settled ends some_workers complete settled']

variable {o : Oracle σ K}

omit [Sub K] in
theorem Oracle.IsStateless.endsAs {γ : Type} (stateless : o.IsStateless) (source : Source γ K)
    (stream : ℕ → γ) (data : PointSet K) (box : Box K) (size k : ℤ) (s : σ) :
    EndsAs (repetition o source stream data box size k)
      fun j => (repetition o source stream data box size k j s).1 :=
  fun j t => repetition_alike stateless.alike source stream data box size k j t s

/-- Runs on an oracle whose answers depend on the query and the rank alone prolong each other,
for every entropy, on any numbers of workers and in any order of turns. -/
theorem Oracle.IsStateless.prolongs (stateless : o.IsStateless) (entropy : ℕ) (data : PointSet K)
    (box : Box K) (size k : ℤ) {count count' workers workers' : ℕ} {turns turns' : List ℕ}
    {s s' : σ} (some_count : 1 ≤ count) (le : count ≤ count') (some_workers : 0 < workers)
    (some_workers' : 0 < workers') :
    let run := repetition o (streamSource K) (Backend.streamOf entropy) data box size k
    ((Progress.start count workers s).runTurns run turns).Settled →
    ((Progress.start count' workers' s').runTurns run turns').Settled →
    Prolongs run count count' (runInterleaved run count workers turns s).1
      (runInterleaved run count' workers' turns' s').1 := by
  intro run settled settled'
  have ends := stateless.endsAs (streamSource K) (Backend.streamOf entropy) data box size k s
  have tells := ends.tells some_count some_workers settled
  exact tells.prolongs le s (ends.tells (some_count.trans le) some_workers' settled')

end Runs

/-- An oracle that answers blocks by a function answers by the query and the rank alone. -/
theorem Oracle.isStateless_ofBlocks (label ownName : String) (size : ℕ)
    (answer : Grid K → ℤ → Except Error (Grid K)) :
    (Oracle.ofBlocks label ownName size answer : Oracle σ K).IsStateless :=
  ⟨fun _ _ _ _ => rfl, fun _ _ _ _ => rfl⟩

/-! ## What a design reports -/

/-- The same design with another number of repetitions and another request for workers. -/
def Design.withRuns (d : Design K) (repetitions : ℕ) (jobs : ℤ) (pos : 1 ≤ repetitions)
    (valid : jobs = -1 ∨ 1 ≤ jobs) : Design K :=
  { d with repetitions, jobs, repetitions_pos := pos, jobs_valid := valid }

@[simp]
theorem Design.box_withRuns [Sub K] [Scalar K] (d : Design K) (repetitions : ℕ) (jobs : ℤ)
    (pos : 1 ≤ repetitions) (valid : jobs = -1 ∨ 1 ≤ jobs) :
    (d.withRuns repetitions jobs pos valid).box = d.box := by
  obtain ⟨points, sampleSize, _, k, bounds, seed, _⟩ := d
  cases bounds <;> rfl

namespace Backend

variable [Add K] [Sub K] [Mul K] [Div K] [Scalar K] [Roots K]

/-- Every oracle that a backend may use answers by the query and the rank alone. -/
def IsStateless (b : Backend σ K) : Prop :=
  ∀ points o, b.oracle points = .ok o → o.IsStateless

/-- The default oracles answer by the query and the rank alone. -/
theorem isStateless_processor (metric : Value) (settings : List (String × Value)) :
    (Backend.processor metric settings : Backend σ K).IsStateless := by
  intro points o ready
  obtain ⟨_, -, ready⟩ := exists_of_bind_eq_ok ready
  obtain ⟨order?, -, ready⟩ := exists_of_bind_eq_ok ready
  cases order? with
  | some order | none =>
      cases ready
      exact Oracle.isStateless_ofBlocks _ _ _ _

variable [BetaTails K] {b : Backend σ K} {d : Design K} {host host' : Host K} {o : Oracle σ K}
variable {repetitions : ℕ} {jobs : ℤ} {pos : 1 ≤ repetitions} {valid : jobs = -1 ∨ 1 ≤ jobs}

omit [Roots K] [BetaTails K] in
/-- The repetitions of a design are a run that tells of them. -/
theorem tells_sampled {box : Box K} {outcome : ℕ → Except Error (Trial K)}
    (boxed : d.box = .ok box)
    (ends : EndsAs (repetition o (streamSource K) (streamOf (d.seed.getD host.freshEntropy))
      d.points box d.sampleSize d.k) outcome) (s : σ) :
    Tells (repetition o (streamSource K) (streamOf (d.seed.getD host.freshEntropy)) d.points box
      d.sampleSize d.k) d.repetitions (b.sampled host d o s) := by
  rw [sampled_eq host s boxed]
  exact ends.tells d.repetitions_pos (workers_pos host)
    (settled_runTurns_turnsInOrder _ _ (workers_pos host) _)

omit [Roots K] [BetaTails K] in
/-- A design with more repetitions prolongs the repetitions of a run. -/
theorem sampled_prolongs (stateless : o.IsStateless)
    (entropy : d.seed.getD host'.freshEntropy = d.seed.getD host.freshEntropy)
    (le : d.repetitions ≤ repetitions) (s s' : σ) :
    ∃ box, d.box = .ok box ∧
      Prolongs (repetition o (streamSource K) (streamOf (d.seed.getD host.freshEntropy)) d.points
          box d.sampleSize d.k) d.repetitions repetitions
        (b.sampled host d o s) (b.sampled host' (d.withRuns repetitions jobs pos valid) o s') := by
  obtain ⟨box, boxed, -⟩ := d.box_ok
  let d' := d.withRuns repetitions jobs pos valid
  have boxed' : d'.box = .ok box := (d.box_withRuns repetitions jobs pos valid).trans boxed
  have entropy' : d'.seed.getD host'.freshEntropy = d.seed.getD host.freshEntropy := entropy
  refine ⟨box, boxed, ?_⟩
  rw [sampled_eq host s boxed, sampled_eq host' s' boxed', entropy']
  exact stateless.prolongs _ _ _ _ _ d.repetitions_pos le (workers_pos host) (workers_pos host')
    (settled_runTurns_turnsInOrder _ _ (workers_pos host) _)
    (settled_runTurns_turnsInOrder _ _ (workers_pos host') _)

/-- How the report of a design with more repetitions follows from that of the design: the trials
of the one are the first trials of the other, and what ends the repetitions of the design ends
both runs. -/
theorem solve_withRuns (stateless : b.IsStateless)
    (entropy : d.seed.getD host'.freshEntropy = d.seed.getD host.freshEntropy)
    (le : d.repetitions ≤ repetitions) (s s' : σ) :
    let d' := d.withRuns repetitions jobs pos valid
    (∀ report report', (b.solve host d s).1 = .ok report → (b.solve host' d' s').1 = .ok report' →
        report'.params.trials.take d.repetitions = report.params.trials) ∧
      ∀ o e, b.oracle d.points = .ok o → d.k + 1 ≤ d.points.size →
        b.sampled host d o s = .error e →
        (b.solve host d s).1 = .error e ∧ (b.solve host' d' s').1 = .error e := by
  intro d'
  refine ⟨fun report report' solved solved' => ?_, fun o e ready enough ran => ?_⟩
  · obtain ⟨o, _, summary, _, ready, -, -, ran, -, numbers⟩ := exists_of_solve_eq_ok solved
    obtain ⟨o', _, summary', _, ready', -, -, ran', -, numbers'⟩ :=
      exists_of_solve_eq_ok solved'
    obtain rfl : o = o' := Except.ok.inj (ready.symm.trans ready')
    obtain ⟨_, -, prolongs⟩ := sampled_prolongs (stateless _ _ ready) entropy le s s'
    rw [ran, ran'] at prolongs
    rw [numbers, numbers']
    cases prolongs with
    | finished complete same each => exact same
  · obtain ⟨box, boxed, prolongs⟩ := sampled_prolongs (stateless _ _ ready) entropy le s s'
    have boxed' : d'.box = .ok box := (d.box_withRuns repetitions jobs pos valid).trans boxed
    have ran' : b.sampled host' d' o s' = .error e := by
      generalize b.sampled host' d' o s' = ended at prolongs
      rw [ran] at prolongs
      cases prolongs with
      | failed => rfl
    exact ⟨solve_of_sampled_error host ready enough boxed ran,
      solve_of_sampled_error (d := d') host' ready enough boxed' ran'⟩

end Backend

end PointPattern
