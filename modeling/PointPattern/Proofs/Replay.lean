/-
# Repeating a study

A report names the entropy that its run has consumed. The same call with this entropy as its seed
is accepted, and it repeats the run: the streams of the repetitions start from the entropy and
from their numbers, and from nothing else.
-/

import PointPattern.Proofs.Emission
import PointPattern.Proofs.Prolongation
import PointPattern.Proofs.Stages
import PointPattern.Proofs.TreeStudy

namespace PointPattern

open PointPattern.Random

variable {σ ν κ K : Type}

/-! ## The same call with a seed -/

/-- The same design with a seed. -/
def Design.withSeed (d : Design K) (entropy : ℕ) : Design K := { d with seed := some entropy }

@[simp]
theorem Design.box_withSeed [Sub K] [Scalar K] (d : Design K) (entropy : ℕ) :
    (d.withSeed entropy).box = d.box := by
  obtain ⟨points, sampleSize, repetitions, k, bounds, seed, jobs⟩ := d
  cases bounds <;> rfl

/-- The same study with a seed. Where a design is given it is the design that has the seed. -/
def Study.withSeed (t : Study σ K) (entropy : ℕ) : Study σ K :=
  match t.design with
  | none => { t with settings := { t.settings with seed := .int entropy } }
  | some d => { t with design := some (d.withSeed entropy) }

/-- Every natural number is a seed. -/
theorem checkSeed_natCast (entropy : ℕ) : checkSeed (.int entropy) = .ok (some entropy) := by
  have nonneg : ¬(entropy : ℤ) < 0 := Int.not_lt.2 (Int.natCast_nonneg entropy)
  simp [checkSeed, Value.isNull, Value.integral?, nonneg]

/-- Settings that make a design make the same design with a seed in place of theirs. -/
theorem Design.ofSettings_withSeed {s : Settings} {d : Design Float} (built : ofSettings s = .ok d)
    (entropy : ℕ) : ofSettings { s with seed := .int entropy } = .ok (d.withSeed entropy) := by
  obtain ⟨points, data, built⟩ := exists_of_bind_eq_ok built
  obtain ⟨chosen, sample, built⟩ := exists_of_bind_eq_ok built
  obtain ⟨sampleSize, sampled, built⟩ := exists_of_bind_eq_ok built
  obtain ⟨repetitions, repeated, built⟩ := exists_of_bind_eq_ok built
  obtain ⟨k, ranked, built⟩ := exists_of_bind_eq_ok built
  split at built
  · next within =>
      obtain ⟨bounds, bounded, built⟩ := exists_of_bind_eq_ok built
      obtain ⟨jobs, shared, built⟩ := exists_of_bind_eq_ok built
      obtain ⟨seed, -, built⟩ := exists_of_bind_eq_ok built
      cases built
      simp only [ofSettings, data, sample, sampled, repeated, ranked, bounded, shared,
        checkSeed_natCast, dif_pos within, Bind.bind, Except.bind]
      rfl
  · cases built

namespace Study

variable {t : Study σ K}

@[simp]
theorem choice_withSeed (t : Study σ K) (entropy : ℕ) : (t.withSeed entropy).choice = t.choice := by
  rw [withSeed]
  split <;> rfl

@[simp]
theorem publish_withSeed (t : Study σ K) (entropy : ℕ) :
    (t.withSeed entropy).publish = t.publish := by
  rw [withSeed]
  split <;> rfl

/-- A study that has a design has one with the seed, too. -/
theorem resolveDesign_withSeed {d : Design Float} (resolved : t.resolveDesign = .ok d)
    (entropy : ℕ) : (t.withSeed entropy).resolveDesign = .ok (d.withSeed entropy) := by
  obtain ⟨design, settings, choice, publish⟩ := t
  cases design with
  | none => exact Design.ofSettings_withSeed resolved entropy
  | some d' =>
      rw [resolveDesign] at resolved
      dsimp only at resolved
      rw [withSeed, resolveDesign]
      dsimp only
      split at resolved
      · cases resolved
        rfl
      · cases resolved

end Study

/-! ## The same run -/

/-- What a choice of a backend can come to. -/
inductive Choice.Selects (c : Choice σ K) (onDevice : Device → PointSet K → Oracle σ K) :
    Backend σ K → Prop
  | injected {o : Oracle σ K} (owned : c.oracle = some o) : Selects c onDevice (.injected o)
  | processor {settings : List (String × Value)} (unowned : c.oracle = none)
      (read : c.settings = .ok settings) : Selects c onDevice (.processor c.metric settings)
  | accelerator {device : Device} (unowned : c.oracle = none) :
      Selects c onDevice (.accelerator device (onDevice device))

section Run

variable [Add K] [Sub K] [Mul K] [Div K] [Scalar K] [Roots K]

omit [Add K] [Sub K] [Mul K] [Div K] [Scalar K] [Roots K] in
theorem selects_of_select {c : Choice σ K} {library : Option Accelerators}
    {onDevice : Device → PointSet K → Oracle σ K} {b : Backend σ K}
    (selected : c.select library onDevice = .ok b) : c.Selects onDevice b := by
  rw [Choice.select] at selected
  split at selected
  · split at selected
    · obtain ⟨kind, -, selected⟩ := exists_of_bind_eq_ok selected
      obtain ⟨settings, read, selected⟩ := exists_of_bind_eq_ok selected
      split at selected
      · next o owned =>
          cases selected
          exact .injected owned
      · next unowned =>
          dsimp only at selected
          split at selected
          · cases selected
            exact .processor unowned read
          · split at selected
            · cases selected
            · obtain ⟨device, -, selected⟩ := exists_of_bind_eq_ok selected
              cases selected
              exact .accelerator unowned
    · cases selected
  · cases selected

/-- A study asks an oracle that answers by the query and the rank alone, if that of the caller
does and those on devices do. -/
theorem isStateless_of_select {c : Choice σ K} {library : Option Accelerators}
    {onDevice : Device → PointSet K → Oracle σ K} {b : Backend σ K}
    (selected : c.select library onDevice = .ok b)
    (owned : ∀ o, c.oracle = some o → o.IsStateless)
    (devices : ∀ device points, (onDevice device points).IsStateless) : b.IsStateless := by
  cases selects_of_select selected with
  | @injected o found =>
      rintro points o' ⟨⟩
      exact owned o found
  | processor => exact Backend.isStateless_processor _ _
  | accelerator =>
      intro points o ready
      obtain ⟨_, -, ready⟩ := exists_of_bind_eq_ok ready
      cases ready
      exact devices _ points

variable [BetaTails K] {b : Backend σ K} {d : Design K} {host host' : Host K} {s : σ}
variable {report : Report (Params K) RunInfo K}

/-- With the entropy of a report as its seed, a design gives the same report, timing apart. -/
theorem solve_withSeed (stateless : b.IsStateless) (processors : host'.processors = host.processors)
    (solved : (b.solve host d s).1 = .ok report) (s' : σ) :
    ∃ report', (b.solve host' (d.withSeed report.info.entropy) s').1 = .ok report' ∧
      report'.params = report.params ∧ report'.info.entropy = report.info.entropy := by
  obtain ⟨o, box, summary, pValue, ready, boxed, enough, ran, significance, numbers⟩ :=
    Backend.exists_of_solve_eq_ok solved
  let d' := d.withSeed report.info.entropy
  have boxed' : d'.box = .ok box := (d.box_withSeed _).trans boxed
  have entropy : d'.seed.getD host'.freshEntropy = d.seed.getD host.freshEntropy :=
    Backend.entropy_of_solve solved
  have workers : Backend.workers host' d' o = Backend.workers host d o := by
    rw [Backend.workers, Backend.workers, processors]
    rfl
  have again : b.sampled host' d' o s' = .ok summary := by
    rw [← ran, Backend.sampled_eq host s boxed, Backend.sampled_eq host' s' boxed', workers,
      entropy]
    have ends := (stateless d.points o ready).endsAs (streamSource K)
      (Backend.streamOf (d.seed.getD host.freshEntropy)) d.points box d.sampleSize d.k s
    have some_workers : 0 < Backend.workers host d o := Backend.workers_pos host
    exact ends.runInterleaved_eq d.repetitions_pos some_workers
      (settled_runTurns_turnsInOrder _ _ some_workers _)
      (settled_runTurns_turnsInOrder _ _ some_workers _)
  obtain ⟨report', solved', numbers'⟩ :=
    Backend.solve_of_pValue_ok (d := d') host' ready enough boxed' again significance
  refine ⟨report', solved', numbers'.trans numbers.symm, ?_⟩
  rw [Backend.entropy_of_solve solved']
  rfl

end Run

/-! ## Studies -/

/-- The solution that a study ends in, if it does not fail. -/
def Outcome.solution? : Outcome ν κ K → Option (Solution K)
  | .failed _ => none
  | .solved solution => some solution
  | .attached solution _ => some solution

namespace Study

variable [Add K] [Sub K] [Mul K] [Div K] [Scalar K] [Roots K] [BetaTails K]
variable [DecidableEq ν] [DecidableEq κ]
variable {host : Host K} {library : Option Accelerators}
variable {onDevice : Device → PointSet K → Oracle σ K} {t : Study σ K} {identity : ν}
variable {parent : Node ν} {scene : Scene σ ν κ K} {solution : Solution K}

omit [Add K] [Sub K] [Mul K] [Div K] [Roots K] [BetaTails K] in
/-- Publication and attachment pass a solution on. -/
theorem solution?_conclude {records : List (String × Option (Datum K))} {solution' : Solution K}
    (ended : (conclude identity parent solution records scene).1.solution? = some solution') :
    solution' = solution := by
  rw [conclude] at ended
  split at ended
  · cases ended
  · dsimp only at ended
    split at ended
    · cases ended
      rfl
    · cases ended
      rfl

omit [Add K] [Sub K] [Mul K] [Div K] [Roots K] [BetaTails K] in
/-- With numbers for all records nothing fails after the run. -/
theorem solution?_conclude_of_numbers (numbers : List (String × Datum K)) :
    (conclude identity parent solution (numbers.map fun number => (number.1, some number.2))
      scene).1.solution? = some solution := by
  simp only [conclude, Channel.emitAll_eq_publish]
  split <;> rfl

/-- A solution comes from a run whose numbers were all there to be published. -/
theorem solves_of_solution?
    (ended : (t.conduct host library onDevice identity parent scene).1.solution? = some solution) :
    t.Solves host library onDevice scene.oracle solution ∧
      ∃ numbers : List (String × Datum K),
        t.records solution = .ok (numbers.map fun number => (number.1, some number.2)) := by
  have computes := computes_compute host library onDevice t parent scene
  rw [conduct] at ended
  generalize t.compute host library onDevice parent scene = computed at computes ended
  cases computes with
  | refused => cases ended
  | solved present solves recorded channel session =>
      obtain rfl := solution?_conclude ended
      obtain ⟨numbers, rfl⟩ := solves.exists_numbers recorded
      exact ⟨solves, numbers, recorded⟩

/-- A run whose numbers are all there to be published makes a solution. -/
theorem solution?_of_solve {d : Design Float} {b : Backend σ K}
    {report : Report (Params K) RunInfo K} {numbers : List (String × Datum K)}
    (resolved : t.resolveDesign = .ok d) (present : checkParent scene.session parent = .ok ())
    (selected : t.choice.select library onDevice = .ok b)
    (solved : (b.solve host (d.map Scalar.ofFloat) scene.oracle).1 = .ok report)
    (recorded : ∀ warned, t.records (solutionOf warned d.seed report) =
      .ok (numbers.map fun number => (number.1, some number.2))) :
    ∃ warned, (t.conduct host library onDevice identity parent scene).1.solution? =
      some (solutionOf warned d.seed report) := by
  refine ⟨t.warns scene.channel, ?_⟩
  rw [conduct, compute, resolved, present, selected]
  simp only [Bind.bind, Except.bind, Pure.pure, Except.pure]
  generalize issued : (if t.warns scene.channel = true then
    { scene with warned := channelClosedWarning :: scene.warned } else scene) = scene₁
  have oracle : scene₁.oracle = scene.oracle := by
    rw [← issued]
    split <;> rfl
  rw [solve_eq, oracle]
  generalize b.solve host (d.map Scalar.ofFloat) scene.oracle = ran at solved ⊢
  obtain ⟨result, s'⟩ := ran
  dsimp only at solved ⊢
  rw [solved]
  dsimp only [Except.map, Design.map]
  rw [recorded]
  exact solution?_conclude_of_numbers numbers

/-- With the entropy of its solution as the seed, a study ends in the same numbers, wherever the
solution is attached and whatever the channel, the clock and the state of the oracle are then. -/
theorem solution?_withSeed {host' : Host K} (processors : host'.processors = host.processors)
    (owned : ∀ o, t.choice.oracle = some o → o.IsStateless)
    (devices : ∀ device points, (onDevice device points).IsStateless)
    (ended : (t.conduct host library onDevice identity parent scene).1.solution? = some solution)
    {identity' : ν} {parent' : Node ν} {scene' : Scene σ ν κ K}
    (present : checkParent scene'.session parent' = .ok ()) :
    ∃ solution',
      ((t.withSeed solution.report.info.entropy).conduct host' library onDevice identity' parent'
        scene').1.solution? = some solution' ∧
      solution'.report.params = solution.report.params ∧
      solution'.report.info.entropy = solution.report.info.entropy ∧
      solution'.seed = some solution.report.info.entropy := by
  obtain ⟨solves, numbers, recorded⟩ := solves_of_solution? ended
  obtain @⟨d, b, report, s', resolved, selected, solved, warned⟩ := solves
  have stateless := isStateless_of_select selected owned devices
  obtain ⟨report', solved', params, entropy⟩ :=
    solve_withSeed stateless processors (congrArg Prod.fst solved) scene'.oracle
  have selected' : (t.withSeed report.info.entropy).choice.select library onDevice = .ok b := by
    rw [choice_withSeed, selected]
  have recorded' (warned' : Bool) :
      (t.withSeed report.info.entropy).records (solutionOf warned' d.seed report') =
        .ok (numbers.map fun number => (number.1, some number.2)) := by
    rw [← recorded, records, records, publish_withSeed]
    show (if _ then report'.params.records else _) = if _ then report.params.records else _
    rw [params]
  obtain ⟨warned', ended'⟩ := solution?_of_solve (resolveDesign_withSeed resolved _) present
    selected' solved' recorded'
  exact ⟨_, ended', params, entropy, rfl⟩

end Study

section Main

variable {σ ν κ K : Type} [Add K] [Sub K] [Mul K] [Div K] [Scalar K] [Roots K] [BetaTails K]
variable [DecidableEq ν] [DecidableEq κ]

/-- The entropy and its number determine a repetition. On an oracle whose answers depend on the
query and the rank alone, a run of more repetitions on the same entropy goes on from a run of
fewer: it has the same trials in the places of both, or it ends in the same failure if a common
repetition fails. This holds on any numbers of workers and in all orders of turns, and it holds of
the reports of designs that differ in the number of repetitions and in the request for workers.
A study that ends in a solution ends in the same numbers if the entropy of its solution is its
seed; that the settings make a design with this seed, and that nothing else fails, is part of what
is said. Where a design is given in place of settings, the seed is one of the design. -/
theorem runs_replay :
    (∀ (o : Oracle σ K) (entropy : ℕ) (data : PointSet K) (box : Box K) (size k : ℤ)
      (count count' : ℕ) (jobs jobs' : ℤ) (processors processors' : Option ℕ)
      (turns turns' : List ℕ) (s s' : σ),
      let run := repetition o (streamSource K) (Backend.streamOf entropy) data box size k
      let workers := (resolveJobs jobs count processors).toNat
      let workers' := (resolveJobs jobs' count' processors').toNat
      o.IsStateless → 1 ≤ count → count ≤ count' →
      ((Progress.start count workers s).runTurns run turns).Settled →
      ((Progress.start count' workers' s').runTurns run turns').Settled →
      Prolongs run count count' (runInterleaved run count workers turns s).1
        (runInterleaved run count' workers' turns' s').1) ∧
    (∀ (host host' : Host K) (b : Backend σ K) (d : Design K) (repetitions : ℕ) (jobs : ℤ)
      (pos : 1 ≤ repetitions) (valid : jobs = -1 ∨ 1 ≤ jobs) (s s' : σ),
      let d' := d.withRuns repetitions jobs pos valid
      b.IsStateless → d.seed.getD host'.freshEntropy = d.seed.getD host.freshEntropy →
      d.repetitions ≤ repetitions →
      (∀ report report', (b.solve host d s).1 = .ok report →
          (b.solve host' d' s').1 = .ok report' →
          report'.params.trials.take d.repetitions = report.params.trials) ∧
        ∀ o e, b.oracle d.points = .ok o → d.k + 1 ≤ d.points.size →
          b.sampled host d o s = .error e →
          (b.solve host d s).1 = .error e ∧ (b.solve host' d' s').1 = .error e) ∧
    (∀ (host host' : Host K) (library : Option Accelerators)
      (onDevice : Device → PointSet K → Oracle σ K) (t : Study σ K) (identity identity' : ν)
      (parent parent' : Node ν) (scene scene' : Scene σ ν κ K) (solution : Solution K),
      host'.processors = host.processors →
      (∀ o, t.choice.oracle = some o → o.IsStateless) →
      (∀ device points, (onDevice device points).IsStateless) →
      (t.conduct host library onDevice identity parent scene).1.solution? = some solution →
      Study.checkParent scene'.session parent' = .ok () →
      ∃ solution',
        ((t.withSeed solution.report.info.entropy).conduct host' library onDevice identity' parent'
          scene').1.solution? = some solution' ∧
        solution'.report.params = solution.report.params ∧
        solution'.report.info.entropy = solution.report.info.entropy ∧
        solution'.seed = some solution.report.info.entropy) := by
  refine ⟨?_, ?_, ?_⟩
  · intro o entropy data box size k count count' jobs jobs' processors processors' turns turns' s s'
      run workers workers' stateless some_count le settled settled'
    exact stateless.prolongs entropy data box size k some_count le (toNat_resolveJobs_pos _ _ _)
      (toNat_resolveJobs_pos _ _ _) settled settled'
  · intro host host' b d repetitions jobs pos valid s s' d' stateless entropy le
    exact Backend.solve_withRuns stateless entropy le s s'
  · intro host host' library onDevice t identity identity' parent parent' scene scene' solution
      processors owned devices ended present
    exact Study.solution?_withSeed processors owned devices ended present

end Main

/-! ## Runs and studies of three points -/

theorem isStateless_countingOracle : countingOracle.IsStateless :=
  ⟨fun _ _ _ _ => rfl, fun _ _ _ _ => rfl⟩

theorem isStateless_sharedOracle : (Backend.injected sharedOracle).IsStateless := by
  rintro points o ⟨⟩
  exact ⟨fun _ _ _ _ => rfl, fun _ _ _ _ => rfl⟩

/-- A study of three points of a line without a seed. -/
def unseededStudy : Study Unit ℚ :=
  { lineStudy with settings := { lineSettings with seed := .null } }

theorem searchesTree_unseededStudy : unseededStudy.SearchesTree where
  fresh := rfl
  processor := rfl
  silent := rfl
  unowned := rfl
  metric := searchesTree_lineStudy.metric

theorem enough_unseededStudy :
    ∃ d, Design.ofSettings unseededStudy.settings = .ok d ∧ d.k + 1 ≤ d.points.size :=
  exists_design_of_any (by decide +kernel)

/-- Three repetitions on two workers prolong two on one worker; five on one worker have the first
three trials of a design; and a study without a seed is repeated from its entropy. -/
theorem runs_replay_threePoints :
    Prolongs
      (repetition countingOracle (streamSource ℚ) (Backend.streamOf 7) threePoints
        ⟨[0], [3], .override⟩ 2 1) 2 3
      (runInterleaved
        (repetition countingOracle (streamSource ℚ) (Backend.streamOf 7) threePoints
          ⟨[0], [3], .override⟩ 2 1) 2 (resolveJobs 1 (2 : ℕ) none).toNat [0, 0] 0).1
      (runInterleaved
        (repetition countingOracle (streamSource ℚ) (Backend.streamOf 7) threePoints
          ⟨[0], [3], .override⟩ 2 1) 3 (resolveJobs (-1) (3 : ℕ) (some 2)).toNat
        [1, 0, 1, 0] 5).1 ∧
      (∀ report report',
        ((Backend.injected sharedOracle).solve twoProcessors threeRun 0).1 = .ok report →
        ((Backend.injected sharedOracle).solve twoProcessors
          (threeRun.withRuns 5 1 (by decide) (.inr le_rfl)) 9).1 = .ok report' →
        report'.params.trials.take 3 = report.params.trials) ∧
      ∃ solution solution' : Solution ℚ,
        (unseededStudy.conduct twoProcessors none (fun _ points => Oracle.tree points 2) 0 .null
          (⟨(), ⟨0, 0, [], [], []⟩, none, []⟩ : Scene Unit ℕ String ℚ)).1.solution? =
            some solution ∧
        ((unseededStudy.withSeed solution.report.info.entropy).conduct twoProcessors none
          (fun _ points => Oracle.tree points 2) 1 .null
          (⟨(), ⟨0, 0, [], [], []⟩, none, []⟩ : Scene Unit ℕ String ℚ)).1.solution? =
            some solution' ∧
        solution'.report.params.trials = solution.report.params.trials := by
  obtain ⟨prolongs, -, -⟩ := runs_replay (σ := ℕ) (ν := ℕ) (κ := String) (K := ℚ)
  obtain ⟨-, reports, -⟩ := runs_replay (σ := ℕ) (ν := ℕ) (κ := String) (K := ℚ)
  obtain ⟨-, -, studies⟩ := runs_replay (σ := Unit) (ν := ℕ) (κ := String) (K := ℚ)
  refine ⟨?_, ?_, ?_⟩
  · exact prolongs countingOracle 7 threePoints ⟨[0], [3], .override⟩ 2 1 2 3 1 (-1) none (some 2)
      [0, 0] [1, 0, 1, 0] 0 5 isStateless_countingOracle (by decide) (by decide)
      (by decide +kernel) (by decide +kernel)
  · exact (reports twoProcessors twoProcessors (.injected sharedOracle) threeRun 5 1 (by decide)
      (.inr le_rfl) 0 9 isStateless_sharedOracle rfl (by decide)).1
  · obtain ⟨d, built, enough⟩ := enough_unseededStudy
    let onDevice (_ : Device) (points : PointSet ℚ) : Oracle Unit ℚ := Oracle.tree points 2
    let scene : Scene Unit ℕ String ℚ := ⟨(), ⟨0, 0, [], [], []⟩, none, []⟩
    obtain ⟨solution, solved⟩ : ∃ solution,
        (unseededStudy.conduct twoProcessors none onDevice 0 .null scene).1 = .solved solution :=
      solved_of_enough searchesTree_unseededStudy rfl built enough
    have ended : (unseededStudy.conduct twoProcessors none onDevice 0 .null scene).1.solution? =
        some solution := by
      rw [solved]
      rfl
    obtain ⟨solution', ended', params, -⟩ := studies twoProcessors twoProcessors none onDevice
      unseededStudy 0 1 .null .null scene scene solution rfl nofun
      (fun _ _ => Oracle.isStateless_ofBlocks _ _ _ _) ended rfl
    exact ⟨solution, solution', ended, ended', congrArg Params.trials params⟩

end PointPattern
