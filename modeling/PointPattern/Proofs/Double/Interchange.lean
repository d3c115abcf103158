/-
# Interchangeable oracles in doubles

Two runs on oracles for one function have the same repetitions in doubles as well, so that they
return the same values of each repetition or raise the same error. Only means may differ, by
rounding, if the runs have different numbers of workers. The error need not be one of the
oracle, however: if sums leave the range of doubles, both runs complain of a sum or of the
argument of the p-value. This is the only way in which they fail to end as they should.
-/

import PointPattern.Proofs.Double.Outcome
import PointPattern.Proofs.Interchange

namespace PointPattern

open PointPattern.Random Double

section Doubles

variable {σ τ : Type} {f : List Float → ℤ → Float} {host host' : Host Float}
variable {b : Backend σ Float} {b' : Backend τ Float} {d : Design Float} {o : Oracle σ Float}
variable {o' : Oracle τ Float}

/-- What a run comes to, as far as the repetitions decide it: the error that they raised, the
complaint about an infinite sum, or the numbers of each repetition. -/
def decidedBy : Except Error (Summary Float) → Except Error (List (Trial Float))
  | .error e => .error e
  | .ok summary =>
    if summary.trials.all (·.u.isFinite) then .ok summary.trials
    else .error (.invalid .evaluationPointNaN)

theorem trials_solve (host : Host Float) {s : σ} (ready : b.oracle d.points = .ok o)
    (enough : d.k + 1 ≤ d.points.size) (size : (Float.ofNat d.sampleSize).isFinite = true)
    (repetitions : (Float.ofNat d.repetitions).isFinite = true) :
    (b.solve host d s).1.map (·.params.trials) = decidedBy (b.sampled host d o s) := by
  obtain ⟨box, boxed, _⟩ := d.box_ok
  have ends := sampled_ends (b := b) (o := o) host s enough repetitions
  cases ran : b.sampled host d o s with
  | error e =>
      rw [Backend.solve_of_sampled_error host ready enough boxed ran]
      rfl
  | ok summary =>
      have sound := ends.result ran
      rw [decidedBy]
      split_ifs with finite
      · obtain ⟨report, result, trials, -⟩ :=
          report_of_finite host ready enough size ran sound (List.all_eq_true.1 finite)
        rw [result]
        exact congrArg Except.ok trials
      · have infinite : ∃ t ∈ summary.trials, t.u.isFinite = false := by
          simpa using finite
        rw [solve_of_infinite host ready enough ran sound infinite]
        rfl

/-- Runs with the same repetitions come to the same. -/
theorem decidedBy_congr {summary summary' : Except Error (Summary Float)}
    (same : SameSummary (fun _ _ => True) summary summary') :
    decidedBy summary = decidedBy summary' := by
  cases same with
  | failed e => rfl
  | finished trials _ => rfl

/-- Two runs on oracles for one function return the same repetitions or raise the same error. -/
theorem trials_solve_congr (ready : b.oracle d.points = .ok o)
    (ready' : b'.oracle d.points = .ok o') (computes : o.Computes f d.points.size d.points.dim)
    (computes' : o'.Computes f d.points.size d.points.dim)
    (entropy : d.seed.getD host.freshEntropy = d.seed.getD host'.freshEntropy)
    (size : (Float.ofNat d.sampleSize).isFinite = true)
    (repetitions : (Float.ofNat d.repetitions).isFinite = true) (s : σ) (s' : τ) :
    (b.solve host d s).1.map (·.params.trials) =
      (b'.solve host' d s').1.map (·.params.trials) := by
  rcases Nat.lt_or_ge d.points.size (d.k + 1) with few | enough
  · rw [Backend.solve_of_few host s (Backend.checkBuilt_of_oracle ready) few,
      Backend.solve_of_few host' s' (Backend.checkBuilt_of_oracle ready') few]
  rw [trials_solve host ready enough size repetitions,
    trials_solve host' ready' enough size repetitions]
  exact decidedBy_congr
    (sampled_same (fun _ _ _ => trivial) entropy enough computes computes' s s')

/-- Two runs with equal outcomes end as they should if one of them does. -/
theorem sameEnd_iff {result result' : Except Error (Report (Params Float) RunInfo Float)}
    (same : result.map (·.params.trials) = result'.map (·.params.trials)) :
    SameEnd (fun p p' => p.trials = p'.trials) result result' ↔
      Ends Error.IsOracleFailure (fun _ => True) result := by
  constructor
  · intro ends
    cases ends with
    | returned _ => exact .ok trivial
    | raised failure => exact .error failure
  · intro ends
    cases ends with
    | @ok report _ =>
        cases result' with
        | error e => cases same
        | ok report' => exact .returned (Except.ok.inj same)
    | @error e failure =>
        cases result' with
        | error e' =>
            obtain rfl : e = e' := Except.error.inj same
            exact .raised failure
        | ok report' => cases same

/-- Whether a run ends as it should is a matter of its errors. -/
theorem ends_map_iff {α β : Type} {fails : Error → Prop} (g : α → β) (result : Except Error α) :
    Ends fails (fun _ => True) (result.map g) ↔ Ends fails (fun _ => True) result := by
  cases result with
  | error e =>
      constructor
      all_goals
        intro ends
        cases ends with
        | error failure => exact .error failure
  | ok a => exact ⟨fun _ => .ok trivial, fun _ => .ok trivial⟩

/-- A run returns or raises a failure of the oracle exactly if its sums stay in range. -/
theorem ends_solve_iff (host : Host Float) (s : σ) (ready : b.oracle d.points = .ok o)
    (enough : d.k + 1 ≤ d.points.size) (size : (Float.ofNat d.sampleSize).isFinite = true)
    (repetitions : (Float.ofNat d.repetitions).isFinite = true) :
    Ends Error.IsOracleFailure (fun _ => True) (b.solve host d s).1 ↔
      StaysInRange (b.sampled host d o s) := by
  rw [← ends_map_iff (·.params.trials), trials_solve host ready enough size repetitions]
  have ends := sampled_ends (b := b) (o := o) host s enough repetitions
  cases ran : b.sampled host d o s with
  | error e =>
      have failure : e = sumOverflow ∨ e.IsOracleFailure := (ends.failure ran).imp id And.left
      constructor
      · intro ended
        cases ended with
        | error declared =>
            refine .error ?_
            rintro rfl
            cases declared
      · intro in_range
        cases in_range with
        | error kept => exact .error (failure.resolve_left kept)
  | ok summary =>
      rw [decidedBy]
      split_ifs with finite
      · exact ⟨fun _ => .ok (List.all_eq_true.1 finite), fun _ => .ok trivial⟩
      · constructor
        · intro ended
          cases ended with
          | error declared => cases declared
        · intro in_range
          cases in_range with
          | ok kept => exact absurd (List.all_eq_true.2 kept) finite

end Doubles

/-- Oracles for one function are interchangeable. Without rounding, two runs return the same
numbers or raise the same failure of the oracle, message, rank and position included. In doubles
they return the same numbers of each repetition or raise the same error, and the error is one
of the oracle unless a sum leaves the range of doubles. This holds of every way in which the
oracles answer, of what they remember and advertise, and of every number of workers. An oracle
that does not advertise that several workers may ask it is asked by one worker, who takes every
turn: all that a run changes in the state of the oracle comes from its repetitions and from
waiting. -/
theorem solve_interchange (σ τ : Type) :
    (∀ {K : Type} [Field K] [LinearOrder K] [IsStrictOrderedRing K] [Scalar K]
      [Scalar.Exact K] [Roots K] [BetaTails K] [BetaTails.Exact K] (f : List K → ℤ → K)
      (host host' : Host K) (b : Backend σ K) (b' : Backend τ K) (d : Design K) (o : Oracle σ K)
      (o' : Oracle τ K) (s : σ) (s' : τ),
      b.oracle d.points = .ok o → b'.oracle d.points = .ok o' →
      o.Computes f d.points.size d.points.dim → o'.Computes f d.points.size d.points.dim →
      d.seed.getD host.freshEntropy = d.seed.getD host'.freshEntropy →
      SameEnd (· = ·) (b.solve host d s).1 (b'.solve host' d s').1) ∧
    (∀ (f : List Float → ℤ → Float) (host host' : Host Float) (b : Backend σ Float)
      (b' : Backend τ Float) (d : Design Float) (o : Oracle σ Float) (o' : Oracle τ Float) (s : σ)
      (s' : τ),
      b.oracle d.points = .ok o → b'.oracle d.points = .ok o' →
      o.Computes f d.points.size d.points.dim → o'.Computes f d.points.size d.points.dim →
      d.seed.getD host.freshEntropy = d.seed.getD host'.freshEntropy →
      (Float.ofNat d.sampleSize).isFinite = true → (Float.ofNat d.repetitions).isFinite = true →
      (b.solve host d s).1.map (·.params.trials) =
          (b'.solve host' d s').1.map (·.params.trials) ∧
        (SameEnd (fun p p' => p.trials = p'.trials) (b.solve host d s).1
            (b'.solve host' d s').1 ↔
          d.points.size < d.k + 1 ∨ StaysInRange (b.sampled host d o s))) ∧
    (∀ {K : Type} [Add K] [Sub K] [Mul K] [Div K] [Scalar K] [Roots K] [BetaTails K]
      (host : Host K) (b : Backend σ K) (d : Design K) (o : Oracle σ K) (box : Box K) (s : σ),
      b.oracle d.points = .ok o → d.box = .ok box → d.k + 1 ≤ d.points.size →
      o.supports .threadSafe = false →
      let run := repetition o (streamSource K)
        (Backend.streamOf (d.seed.getD host.freshEntropy)) d.points box d.sampleSize d.k
      let alone := runInterleaved run d.repetitions 1 (List.replicate d.repetitions 0)
        ((b.await d.points)^[6] s)
      b.sampled host d o s = alone.1 ∧
        ∃ waits, (b.solve host d s).2 = (b.await d.points)^[waits] alone.2) := by
  refine ⟨?_, ?_, ?_⟩
  · intro K _ _ _ _ _ _ _ _ f host host' b b' d o o' s s' ready ready' computes computes'
      entropy
    exact sameEnd_of_computes ready ready' computes computes' entropy s s'
  · intro f host host' b b' d o o' s s' ready ready' computes computes' entropy size repetitions
    have same := trials_solve_congr ready ready' computes computes' entropy size repetitions s s'
    refine ⟨same, (sameEnd_iff same).trans ?_⟩
    rcases Nat.lt_or_ge d.points.size (d.k + 1) with few | enough
    · rw [Backend.solve_of_few host s (Backend.checkBuilt_of_oracle ready) few]
      exact ⟨fun _ => .inl few, fun _ => .error rfl⟩
    · rw [ends_solve_iff host s ready enough size repetitions]
      exact ⟨.inr, fun kept => kept.resolve_left (Nat.not_lt.2 enough)⟩
  · intro K _ _ _ _ _ _ _ host b d o box s ready boxed enough alone
    obtain ⟨waits, changed⟩ := Backend.solve_snd host s ready boxed enough
    rw [Backend.workers_eq_one host alone, Backend.trials, runTrials, turnsInOrder_one] at changed
    rw [Backend.sampled_eq host s boxed, Backend.workers_eq_one host alone, Backend.trials,
      runTrials, turnsInOrder_one]
    exact ⟨rfl, waits, changed⟩

/-! ## Two oracles with the same answers -/

/-- The oracle that gives the same distance to every query, and answers in blocks. -/
def blockOracle (x : Float) : Oracle Unit Float :=
  { constantOracle x with advertises := some fun name => name = Capability.batchQuery.name }

theorem computes_constantOracle (x : Float) (size dim : ℕ) :
    (constantOracle x).Computes (fun _ _ => x) size dim where
  single _ _ _ _ _ _ _ := rfl
  block batch := by cases batch

theorem computes_blockOracle (x : Float) (size dim : ℕ) :
    (blockOracle x).Computes (fun _ _ => x) size dim where
  single single := by cases single
  block _ rows _ _ lengths _ _ := by
    show Except.ok (Grid.ofPoint ((Grid.ofRows dim rows).subgrids.map fun _ => x)) = _
    rw [subgrids_ofRows lengths, List.map_map]
    rfl

theorem computes_countingOracle (size dim : ℕ) :
    countingOracle.Computes (fun row _ => |row.headD 0|) size dim where
  single _ _ _ _ _ _ _ := rfl
  block batch := by cases batch

theorem computes_sharedOracle (size dim : ℕ) :
    sharedOracle.Computes (fun row _ => |row.headD 0|) size dim where
  single single := by cases single
  block _ rows _ _ lengths _ _ := by
    show Except.ok (Grid.ofPoint ((Grid.ofRows dim rows).subgrids.map
      fun point => |point.values.headD 0|)) = _
    rw [subgrids_ofRows lengths, List.map_map]
    rfl

/-- Two workers ask a shared oracle in blocks, one worker asks another oracle point by point,
and the reports have the same numbers. The same holds of the repetitions in doubles. -/
theorem solve_interchange_threeRun :
    (Backend.workers twoProcessors threeRun sharedOracle = 2 ∧
      Backend.workers twoProcessors threeRun countingOracle = 1 ∧
      SameEnd (· = ·) ((Backend.injected sharedOracle).solve twoProcessors threeRun 0).1
        ((Backend.injected countingOracle).solve twoProcessors threeRun 5).1) ∧
    ((Backend.injected (blockOracle 0.5)).solve stillHost planeRun ()).1.map (·.params.trials) =
        ((Backend.injected (constantOracle 0.5)).solve stillHost planeRun ()).1.map
          (·.params.trials) ∧
      (SameEnd (fun p p' => p.trials = p'.trials)
          ((Backend.injected (blockOracle 0.5)).solve stillHost planeRun ()).1
          ((Backend.injected (constantOracle 0.5)).solve stillHost planeRun ()).1 ↔
        planeRun.points.size < planeRun.k + 1 ∨
          StaysInRange ((Backend.injected (blockOracle 0.5)).sampled stillHost planeRun
            (blockOracle 0.5) ())) ∧
    ∃ waits, ((Backend.injected countingOracle).solve twoProcessors threeRun 0).2 =
      id^[waits] (runInterleaved (repetition countingOracle (streamSource ℚ) (Backend.streamOf 7)
        threePoints ⟨[0], [3], .data⟩ 2 1) 3 1 (List.replicate 3 0) 0).2 := by
  obtain ⟨exactly, -, alone⟩ := solve_interchange ℕ ℕ
  obtain ⟨-, doubles, -⟩ := solve_interchange Unit Unit
  have size : (Float.ofNat planeRun.sampleSize).isFinite = true := by decide +kernel
  refine ⟨⟨by decide, by decide, ?_⟩, ?_⟩
  · exact exactly _ twoProcessors twoProcessors (.injected sharedOracle) (.injected countingOracle)
      threeRun sharedOracle countingOracle 0 5 rfl rfl (computes_sharedOracle _ _)
      (computes_countingOracle _ _) rfl
  · obtain ⟨trials, ends⟩ := doubles _ stillHost stillHost (.injected (blockOracle 0.5))
      (.injected (constantOracle 0.5)) planeRun (blockOracle 0.5) (constantOracle 0.5) () () rfl rfl
      (computes_blockOracle _ _ _) (computes_constantOracle _ _ _) rfl size size
    refine ⟨trials, ends, ?_⟩
    exact (alone twoProcessors (.injected countingOracle) threeRun countingOracle
      ⟨[0], [3], .data⟩ 0 rfl box_threeRun (by decide) rfl).2

/-- Distances whose squares are infinite: both runs end in a complaint about the p-value, which
is no failure of the oracle. -/
theorem solve_farOracle_not_sameEnd :
    farOracle.Computes (fun _ _ => 1e200) planeRun.points.size planeRun.points.dim ∧
      (blockOracle 1e200).Computes (fun _ _ => 1e200) planeRun.points.size planeRun.points.dim ∧
      ((Backend.injected farOracle).solve stillHost planeRun ()).1 =
        .error (.invalid .evaluationPointNaN) ∧
      ((Backend.injected (blockOracle 1e200)).solve stillHost planeRun ()).1 =
        .error (.invalid .evaluationPointNaN) ∧
      ¬SameEnd (fun p p' => p.trials = p'.trials)
        ((Backend.injected (blockOracle 1e200)).solve stillHost planeRun ()).1
        ((Backend.injected farOracle).solve stillHost planeRun ()).1 := by
  have size : (Float.ofNat planeRun.sampleSize).isFinite = true := by decide +kernel
  have single : farOracle.Computes (fun _ _ => 1e200) planeRun.points.size planeRun.points.dim :=
    computes_constantOracle _ _ _
  have block := computes_blockOracle 1e200 planeRun.points.size planeRun.points.dim
  have in_blocks : ((Backend.injected (blockOracle 1e200)).solve stillHost planeRun ()).1 =
      .error (.invalid .evaluationPointNaN) := by
    have same :
        ((Backend.injected (blockOracle 1e200)).solve stillHost planeRun ()).1.map
            (·.params.trials) =
          ((Backend.injected farOracle).solve stillHost planeRun ()).1.map (·.params.trials) :=
      trials_solve_congr rfl rfl block single rfl size size () ()
    rw [solve_farOracle] at same
    exact error_of_map same
  refine ⟨single, block, solve_farOracle, in_blocks, ?_⟩
  rw [solve_farOracle, in_blocks]
  intro ends
  cases ends with
  | raised failure => cases failure

end PointPattern
