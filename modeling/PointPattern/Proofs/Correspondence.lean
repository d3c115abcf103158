/-
# Corresponding runs

Two runs over different data may draw the same numbers and still have different results. If every
repetition of the one ends in a result or a failure that corresponds to that of the other, so do
the runs: the first repetition that fails has the same number in both, and without a failure the
results correspond place by place. Without rounding the tally of a run is that of its trials, on
whatever number of workers, and every tally has a p-value, so that the reports correspond as the
repetitions do.
-/

import PointPattern.Proofs.Interchange

namespace PointPattern

open PointPattern.Random

/-- How two operations end that correspond to each other: both in results that are related as
given, or both in failures that are. -/
inductive Corresponds {α β : Type} (failures : Error → Error → Prop) (results : α → β → Prop) :
    Except Error α → Except Error β → Prop
  | ok {a : α} {b : β} (result : results a b) : Corresponds failures results (.ok a) (.ok b)
  | error {e e' : Error} (failure : failures e e') :
      Corresponds failures results (.error e) (.error e')

/-- Operations that correspond, followed by operations that do. -/
theorem Corresponds.bind {α β α' β' : Type} {failures : Error → Error → Prop}
    {results : α → β → Prop} {results' : α' → β' → Prop} {x : Except Error α} {y : Except Error β}
    {next : α → Except Error α'} {next' : β → Except Error β'}
    (first : Corresponds failures results x y)
    (second : ∀ a b, results a b → Corresponds failures results' (next a) (next' b)) :
    Corresponds failures results' (x >>= next) (y >>= next') := by
  cases first with
  | ok result => exact second _ _ result
  | error failure => exact .error failure

theorem corresponds_self {α : Type} {failures : Error → Error → Prop}
    (refl : ∀ e, failures e e) (x : Except Error α) : Corresponds failures (· = ·) x x := by
  cases x with
  | error e => exact .error (refl e)
  | ok a => exact .ok rfl

theorem corresponds_map {α β : Type} {failures : Error → Error → Prop}
    (refl : ∀ e, failures e e) (f : α → β) (x : Except Error α) :
    Corresponds failures (fun a b => b = f a) x (x.map f) := by
  cases x with
  | error e => exact .error (refl e)
  | ok a => exact .ok rfl

section Draws

variable {σ τ γ α β α' β' : Type} {failures : Error → Error → Prop} {results : α → β → Prop}
variable {results' : α' → β' → Prop}

/-- Two operations that end in corresponding ways and leave the same source of randomness,
whatever the states of their oracles are. -/
def Draw.Corresponds (failures : Error → Error → Prop) (results : α → β → Prop)
    (m : Draw σ γ α) (m' : Draw τ γ β) : Prop :=
  ∀ s s' g, PointPattern.Corresponds failures results (m (s, g)).1 (m' (s', g)).1 ∧
    (m (s, g)).2.2 = (m' (s', g)).2.2

namespace Draw.Corresponds

theorem bind {m : Draw σ γ α} {m' : Draw τ γ β} {f : α → Draw σ γ α'} {f' : β → Draw τ γ β'}
    (first : Draw.Corresponds failures results m m')
    (second : ∀ a b, results a b → Draw.Corresponds failures results' (f a) (f' b)) :
    Draw.Corresponds failures results' (m >>= f) (m' >>= f') := by
  intro s s' g
  obtain ⟨ended, same_source⟩ := first s s' g
  simp only [Bind.bind, ExceptT.bind, ExceptT.mk, StateT.bind]
  rcases ran : m (s, g) with ⟨result, s₁, g₁⟩
  rcases ran' : m' (s', g) with ⟨result', s₁', g₁'⟩
  rw [ran, ran'] at ended same_source
  dsimp only at ended same_source
  subst same_source
  cases ended with
  | error failure => exact ⟨.error failure, rfl⟩
  | ok result => exact second _ _ result s₁ s₁' g₁

theorem pure {a : α} {b : β} (result : results a b) :
    Draw.Corresponds failures results (Pure.pure a : Draw σ γ α) (Pure.pure b : Draw τ γ β) :=
  fun _ _ _ => ⟨.ok result, rfl⟩

theorem query {step : Step σ α} {step' : Step τ β}
    (ended : ∀ s s', PointPattern.Corresponds failures results (step s).1 (step' s').1) :
    Draw.Corresponds failures results (Draw.query step : Draw σ γ α) (Draw.query step') :=
  fun s s' _ => ⟨ended s s', rfl⟩

theorem random {draw : γ → Except Error α × γ} {draw' : γ → Except Error β × γ}
    (ended : ∀ g, PointPattern.Corresponds failures results (draw g).1 (draw' g).1)
    (same : ∀ g, (draw g).2 = (draw' g).2) :
    Draw.Corresponds failures results (Draw.random draw : Draw σ γ α)
      (Draw.random draw' : Draw τ γ β) :=
  fun _ _ g => ⟨ended g, same g⟩

end Draw.Corresponds

end Draws

/-! ## All repetitions -/

section Outcomes

variable {K : Type} {failures : Error → Error → Prop} {f : Trial K → Trial K}
variable {outcome outcome' : ℕ → Except Error (Trial K)}

/-- The first failure among some repetitions corresponds to the first among the others. -/
theorem firstFailures_correspond
    (each : ∀ j, Corresponds failures (fun trial trial' => trial' = f trial) (outcome j)
      (outcome' j)) (numbers : List ℕ) :
    (numbers.findSome? (failureOf outcome) = none ∧
        numbers.findSome? (failureOf outcome') = none) ∨
      ∃ e e', numbers.findSome? (failureOf outcome) = some e ∧
        numbers.findSome? (failureOf outcome') = some e' ∧ failures e e' := by
  induction numbers with
  | nil => exact .inl ⟨rfl, rfl⟩
  | cons j rest ih =>
      rw [List.findSome?_cons, List.findSome?_cons, failureOf, failureOf]
      have ended := each j
      generalize outcome j = result at ended
      generalize outcome' j = result' at ended
      cases ended with
      | ok result => exact ih
      | error failure => exact .inr ⟨_, _, rfl, rfl, failure⟩

end Outcomes

section Runs

variable {σ τ K : Type} [Field K] [LinearOrder K] [IsStrictOrderedRing K] [Scalar K]
variable [Scalar.Exact K]

/-- A tally in one pass over the trials. -/
def Summary.IsTallied (summary : Summary K) : Prop := summary.tally = Tally.ofList summary.trials

omit [Field K] [LinearOrder K] [IsStrictOrderedRing K] [Scalar.Exact K] in
/-- A run fails with the first repetition that does. -/
theorem runTrials_of_failure [Add K] [Sub K] [Mul K] [Div K] {run : ℕ → Step σ (Trial K)}
    {outcome : ℕ → Except Error (Trial K)} {e : Error} {count pieces : ℕ}
    (ends : EndsAs run outcome) (some_pieces : 0 < pieces)
    (found : (List.range count).findSome? (failureOf outcome) = some e) (s : σ) :
    (runTrials run count pieces s).1 = .error e := by
  have settled := Progress.settled_turnsInOrder ends count pieces s
  exact Progress.collect_of_failure ends some_pieces found settled

/-- Without a failure a run gives all trials and their tally. -/
theorem runTrials_of_complete {run : ℕ → Step σ (Trial K)} {outcome : ℕ → Except Error (Trial K)}
    {trials : ℕ → Trial K} {count pieces : ℕ} (ends : EndsAs run outcome)
    (some_pieces : 0 < pieces) (complete : ∀ j < count, outcome j = .ok (trials j)) (s : σ) :
    (runTrials run count pieces s).1 =
      .ok ⟨(List.range count).map trials, Tally.ofList ((List.range count).map trials)⟩ := by
  have settled := Progress.settled_turnsInOrder ends count pieces s
  have tallied : Tally.empty.mergeAll ((chunks count pieces).map (List.map trials)) =
      Tally.ofList ((List.range count).map trials) := by
    rw [Tally.mergeAll_eq_ofList, ← List.map_flatten, flatten_chunks some_pieces]
  rw [← tallied]
  exact Progress.collect_of_settled ends some_pieces complete settled

/-- Repetitions that correspond make runs that do, on any two numbers of workers. -/
theorem runTrials_correspond {run : ℕ → Step σ (Trial K)} {run' : ℕ → Step τ (Trial K)}
    {outcome outcome' : ℕ → Except Error (Trial K)} {failures : Error → Error → Prop}
    {f : Trial K → Trial K} (ends : EndsAs run outcome) (ends' : EndsAs run' outcome')
    (each : ∀ j, Corresponds failures (fun trial trial' => trial' = f trial) (outcome j)
      (outcome' j))
    {count pieces pieces' : ℕ} (some_count : 0 < count) (some_pieces : 0 < pieces)
    (some_pieces' : 0 < pieces') (s : σ) (s' : τ) :
    Corresponds failures
      (fun summary summary' => summary.IsTallied ∧ summary'.IsTallied ∧
        summary'.trials = summary.trials.map f)
      (runTrials run count pieces s).1 (runTrials run' count pieces' s').1 := by
  rcases firstFailures_correspond each (List.range count) with ⟨found, found'⟩ |
    ⟨e, e', found, found', failure⟩
  · obtain ⟨trials, complete⟩ := exists_trials some_count found
    have complete' (j : ℕ) (inside : j < count) : outcome' j = .ok (f (trials j)) := by
      have ended := each j
      rw [complete j inside] at ended
      generalize outcome' j = result' at ended
      cases ended with
      | ok result => rw [result]
    rw [runTrials_of_complete ends some_pieces complete,
      runTrials_of_complete ends' some_pieces' complete']
    exact .ok ⟨rfl, rfl, (List.map_map ..).symm⟩
  · rw [runTrials_of_failure ends some_pieces found, runTrials_of_failure ends' some_pieces' found']
    exact .error failure

/-! ## Runs of two designs -/

namespace Backend

variable {b : Backend σ K} {b' : Backend τ K} {d d' : Design K} {o : Oracle σ K} {o' : Oracle τ K}
variable {host host' : Host K} {box box' : Box K} {failures : Error → Error → Prop}

/-- Designs with the same entropy and as many repetitions, each of which corresponds to the other
one of its number. -/
theorem sampled_correspond {outcome outcome' : ℕ → Except Error (Trial K)}
    {f : Trial K → Trial K} (boxed : d.box = .ok box) (boxed' : d'.box = .ok box')
    (ends : EndsAs (repetition o (streamSource K) (streamOf (d.seed.getD host.freshEntropy))
      d.points box d.sampleSize d.k) outcome)
    (ends' : EndsAs (repetition o' (streamSource K) (streamOf (d.seed.getD host.freshEntropy))
      d'.points box' d'.sampleSize d'.k) outcome')
    (each : ∀ j, Corresponds failures (fun trial trial' => trial' = f trial) (outcome j)
      (outcome' j))
    (entropy : d.seed.getD host.freshEntropy = d'.seed.getD host'.freshEntropy)
    (same_count : d'.repetitions = d.repetitions) (s : σ) (s' : τ) :
    Corresponds failures
      (fun summary summary' => summary.IsTallied ∧ summary'.IsTallied ∧
        summary'.trials = summary.trials.map f)
      (b.sampled host d o s) (b'.sampled host' d' o' s') := by
  rw [sampled_eq host s boxed, sampled_eq host' s' boxed', trials, trials, ← entropy, same_count]
  exact runTrials_correspond ends ends' each d.repetitions_pos (workers_pos host)
    (workers_pos host') _ _

variable [Roots K] [BetaTails K] [BetaTails.Exact K]

/-- Repetitions that finish make a report. -/
theorem exists_report {s : σ} {summary : Summary K} (ready : b.oracle d.points = .ok o)
    (enough : d.k + 1 ≤ d.points.size) (boxed : d.box = .ok box)
    (ran : b.sampled host d o s = .ok summary) :
    ∃ report pValue, (b.solve host d s).1 = .ok report ∧
      Significance.pValue summary.tally.h.mean d.sampleSize = .ok pValue ∧
      report.params = params d box summary pValue := by
  obtain ⟨pValue, significance, -⟩ := Significance.pValue_mem d.sampleSize_pos summary.tally.h.mean
  obtain ⟨report, solved, numbers⟩ := solve_of_pValue_ok host ready enough boxed ran significance
  exact ⟨report, pValue, solved, significance, numbers⟩

/-- Runs whose repetitions correspond end as these do. -/
theorem solve_correspond {s : σ} {s' : τ} {results : Summary K → Summary K → Prop}
    (related : Params K → Params K → Prop) (ready : b.oracle d.points = .ok o)
    (ready' : b'.oracle d'.points = .ok o') (enough : d.k + 1 ≤ d.points.size)
    (enough' : d'.k + 1 ≤ d'.points.size) (boxed : d.box = .ok box) (boxed' : d'.box = .ok box')
    (sampled : Corresponds failures results (b.sampled host d o s) (b'.sampled host' d' o' s'))
    (relates : ∀ summary summary' pValue pValue', results summary summary' →
      Significance.pValue summary.tally.h.mean d.sampleSize = .ok pValue →
      Significance.pValue summary'.tally.h.mean d'.sampleSize = .ok pValue' →
      related (params d box summary pValue) (params d' box' summary' pValue')) :
    Corresponds failures (fun report report' => related report.params report'.params)
      (b.solve host d s).1 (b'.solve host' d' s').1 := by
  generalize ran : b.sampled host d o s = result at sampled
  generalize ran' : b'.sampled host' d' o' s' = result' at sampled
  cases sampled with
  | error failure =>
      rw [solve_of_sampled_error host ready enough boxed ran,
        solve_of_sampled_error host' ready' enough' boxed' ran']
      exact .error failure
  | ok result =>
      obtain ⟨report, pValue, solved, significance, numbers⟩ :=
        exists_report ready enough boxed ran
      obtain ⟨report', pValue', solved', significance', numbers'⟩ :=
        exists_report ready' enough' boxed' ran'
      rw [solved, solved']
      refine .ok ?_
      rw [numbers, numbers']
      exact relates _ _ pValue pValue' result significance significance'

end Backend

end Runs

end PointPattern
