/-
# The settings of a design

A design describes settings again: its rows, its numbers, its bounds and its seed. They are a
normal form of the settings that it was built from if they pass every check that is made of them on
the way from a call to its result, no check changes a value, and a study of the design ends as the
study of the settings does. They are one exactly if no number in extended precision among the data
lies beyond the range of doubles. Such a number passes as it is given, and the design holds an
infinite coordinate in its place: nothing that checks the points again accepts them.
-/

import PointPattern.Oracle.Recipe
import PointPattern.Proofs.Replay

namespace PointPattern

/-! ## Reading back what was written -/

theorem checkInteger_natCast {n : ℕ} (positive : 1 ≤ n) (parameter : String) :
    checkInteger (.int n) parameter 1 = .ok ⟨n, by exact_mod_cast positive⟩ :=
  dif_pos _

theorem checkJobs_int {jobs : ℤ} (valid : jobs = -1 ∨ 1 ≤ jobs) :
    checkJobs (.int jobs) = .ok ⟨jobs, valid⟩ :=
  dif_pos _

theorem checkSeed_option (seed : Option ℕ) :
    checkSeed ((seed.map fun n => Value.int n).getD .null) = .ok seed := by
  cases seed with
  | none => rfl
  | some n => exact checkSeed_natCast n

namespace Design

variable {s : Settings} {d : Design Float}

/-- The settings of a design make the design if its points are finite. -/
theorem ofSettings_toSettings (built : ofSettings s = .ok d) (finite : d.points.IsFinite) :
    ofSettings d.toSettings = .ok d := by
  have points : checkPoints d.toSettings.data "data" = .ok d.points :=
    (checkPoints_toGrid_iff "data").2 finite
  have bounds := checkBounds_toSettings built
  have seed : checkSeed d.toSettings.seed = .ok d.seed := checkSeed_option d.seed
  have sample : chosenSampleSize d.toSettings.sampleSize d.points.size = .ok (.int d.sampleSize) :=
    rfl
  have sampleSize := checkInteger_natCast d.sampleSize_pos "sample_size"
  have repetitions : checkInteger d.toSettings.repetitions "repetitions" 1 = _ :=
    checkInteger_natCast d.repetitions_pos "repetitions"
  have k : checkInteger d.toSettings.k "k" 1 = _ := checkInteger_natCast d.k_pos "k"
  have jobs : checkJobs d.toSettings.jobs = _ := checkJobs_int d.jobs_valid
  have within : ((d.sampleSize : ℤ)).toNat ≤ d.points.size := d.sampleSize_le
  simp only [ofSettings, points, sample, sampleSize, repetitions, k, dif_pos within, bounds, jobs,
    seed, Bind.bind, Except.bind]
  rfl

/-- The box of a design is there, and it is found in the bounds as they were given and in those
of the design. -/
theorem estimateBox_eq (built : ofSettings s = .ok d) :
    ∃ box, d.box = .ok box ∧
      estimateBox d.points.toGrid d.toSettings.minima d.toSettings.maxima = .ok box ∧
      estimateBox d.points.toGrid s.minima s.maxima = .ok box := by
  obtain ⟨box, boxed, -⟩ := d.box_ok
  refine ⟨box, boxed, ?_, ?_⟩
  · rw [estimateBox_toSettings built, boxed]
  · rw [estimateBox_of_checkBounds (checks_of_ofSettings built).2, boxed]

/-- An oracle that is built over the data of a design is one over its points if they are
finite. -/
theorem build_toSettings (finite : d.points.IsFinite) (library : Option Accelerators)
    (metric : Value) (settings : List (String × Value)) :
    (Recipe.ofMetric none metric settings).build library d.toSettings.data =
      Oracle.ofMetric d.points metric settings := by
  have points : checkPoints ((none : Option Value).getD d.toSettings.data) "data" = .ok d.points :=
    (checkPoints_toGrid_iff "data").2 finite
  have indexable : Recipe.checkIndexable d.points = .ok () :=
    if_pos (List.all_eq_true.2 fun row mem => List.all_eq_true.2 (finite row mem))
  rw [Recipe.build, Recipe.buildOfMetric, points]
  simp only [Bind.bind, Except.bind, indexable, ite_self]
  cases read : Oracle.treeOrder? metric settings with
  | error e =>
      rw [Oracle.ofMetric, read]
      rfl
  | ok order => rfl

end Design

/-! ## Runs on the same entropy -/

variable {σ ν κ K : Type} [Add K] [Sub K] [Mul K] [Div K] [Scalar K] [Roots K] [BetaTails K]

/-- Of the machine, the numbers of a run depend on the number of processors and the entropy. -/
theorem Backend.params_solve_congr {host host' : Host K} {d : Design K} (b : Backend σ K) (s : σ)
    (processors : host'.processors = host.processors)
    (entropy : d.seed.getD host'.freshEntropy = d.seed.getD host.freshEntropy) :
    (b.solve host' d s).1.map (·.params) = (b.solve host d s).1.map (·.params) := by
  cases built : b.checkBuilt d.points with
  | error e => rw [solve_of_unbuilt host s built, solve_of_unbuilt host' s built]
  | ok =>
      rcases Nat.lt_or_ge d.points.size (d.k + 1) with few | enough
      · rw [solve_of_few host s built few, solve_of_few host' s built few]
      · cases ready : b.oracle d.points with
        | error e =>
            rw [solve_of_oracle_error host s ready enough,
              solve_of_oracle_error host' s ready enough]
        | ok o =>
            obtain ⟨box, boxed, -⟩ := d.box_ok
            have sampled : b.sampled host' d o s = b.sampled host d o s := by
              rw [Backend.sampled, Backend.sampled, processors, entropy]
            rw [params_solve host s ready boxed enough, params_solve host' s ready boxed enough,
              sampled]

namespace Study

variable [DecidableEq ν] [DecidableEq κ]
variable {host host' : Host K} {library : Option Accelerators}
variable {onDevice : Device → PointSet K → Oracle σ K} {t t' : Study σ K} {identity : ν}
variable {parent : Node ν} {scene : Scene σ ν κ K} {d : Design Float}

/-- The parent of a study that ends in a solution is there. -/
theorem checkParent_of_solution? {solution : Solution K}
    (ended : (t.conduct host library onDevice identity parent scene).1.solution? = some solution) :
    checkParent scene.session parent = .ok () := by
  have computes := computes_compute host library onDevice t parent scene
  rw [conduct] at ended
  generalize t.compute host library onDevice parent scene = computed at computes ended
  cases computes with
  | refused => cases ended
  | solved present => exact present

/-- Two studies that come to the same design by the same choices have the same numbers if their
runs do. -/
theorem solution?_of_same_params (resolved : t.resolveDesign = .ok d)
    (resolved' : t'.resolveDesign = .ok d) (choice : t'.choice = t.choice)
    (publish : t'.publish = t.publish)
    (same : ∀ b : Backend σ K, (b.solve host' (d.map Scalar.ofFloat) scene.oracle).1.map
        (·.params) = (b.solve host (d.map Scalar.ofFloat) scene.oracle).1.map (·.params))
    {solution : Solution K}
    (ended : (t.conduct host library onDevice identity parent scene).1.solution? = some solution) :
    ∃ solution', (t'.conduct host' library onDevice identity parent scene).1.solution? =
        some solution' ∧ solution'.report.params = solution.report.params := by
  have present := checkParent_of_solution? ended
  obtain ⟨solves, numbers, recorded⟩ := solves_of_solution? ended
  obtain @⟨d', b, report, s', resolved₁, selected, solved, warned⟩ := solves
  obtain rfl : d = d' := Except.ok.inj (resolved.symm.trans resolved₁)
  have params := same b
  rw [solved] at params
  obtain ⟨report', solved', params⟩ := ok_of_map params
  have recorded' (warned' : Bool) : t'.records (solutionOf warned' d.seed report') =
      .ok (numbers.map fun number => (number.1, some number.2)) := by
    rw [← recorded, records, records, publish]
    show (if _ then report'.params.records else _) = if _ then report.params.records else _
    rw [params]
  rw [← choice] at selected
  obtain ⟨warned', ended'⟩ := solution?_of_solve resolved' present selected solved' recorded'
  exact ⟨_, ended', params⟩

/-- The same study with a design in place of its settings. -/
def withDesign (t : Study σ K) (d : Design Float) (settings : Settings) : Study σ K :=
  { t with design := some d, settings }

omit [Add K] [Sub K] [Mul K] [Div K] [Scalar K] [Roots K] [BetaTails K] in
theorem resolveDesign_withDesign {settings : Settings} (untouched : settings.given = []) :
    (t.withDesign d settings).resolveDesign = .ok d := by
  rw [resolveDesign, withDesign]
  dsimp only
  rw [untouched]

/-- A study of a design ends as the study of the settings that make it. -/
theorem conduct_withDesign (resolved : t.resolveDesign = .ok d) {settings : Settings}
    (untouched : settings.given = []) :
    (t.withDesign d settings).conduct host library onDevice identity parent scene =
      t.conduct host library onDevice identity parent scene := by
  rw [conduct, conduct, compute, compute, resolveDesign_withDesign untouched, resolved]
  rfl

/-- On another machine it has the same numbers if the entropy is the same. -/
theorem params_withDesign (resolved : t.resolveDesign = .ok d) {settings : Settings}
    (untouched : settings.given = []) (processors : host'.processors = host.processors)
    (entropy : d.seed.getD host'.freshEntropy = d.seed.getD host.freshEntropy) :
    ((t.withDesign d settings).conduct host' library onDevice identity parent
        scene).1.solution?.map (·.report.params) =
      (t.conduct host library onDevice identity parent scene).1.solution?.map
        (·.report.params) := by
  have same (b : Backend σ K) : (b.solve host' (d.map Scalar.ofFloat) scene.oracle).1.map
      (·.params) = (b.solve host (d.map Scalar.ofFloat) scene.oracle).1.map (·.params) :=
    b.params_solve_congr scene.oracle processors entropy
  have resolved' : (t.withDesign d settings).resolveDesign = .ok d :=
    resolveDesign_withDesign untouched
  ext params
  rw [Option.map_eq_some_iff, Option.map_eq_some_iff]
  constructor
  · rintro ⟨solution, ended, rfl⟩
    exact solution?_of_same_params resolved' resolved rfl rfl (fun b => (same b).symm) ended
  · rintro ⟨solution, ended, rfl⟩
    exact solution?_of_same_params resolved resolved' rfl rfl same ended

end Study

/-! ## Points that do not pass again -/

/-- In doubles an oracle that is built insists on what the checks of data insist on. -/
theorem Backend.checkCorpus_float (points : PointSet Float) :
    Backend.checkCorpus points = checkFinite points.toGrid "data" := by
  have isInf : (fun x : Float => !x.isFinite && !x.isNaN) = Float.isInf :=
    funext fun x => (Double.isInf_eq x).symm
  have same : (Scalar.hasInfinities : HasInfinities Float) =
      ⟨Float.isFinite, Float.isNaN, Float.isInf⟩ := congrArg (HasInfinities.mk _ _) isInf
  rw [Backend.checkCorpus, same]

/-- A backend that was chosen without an oracle of the caller builds none over points that do not
pass. -/
theorem Backend.oracle_of_unowned {σ : Type} {choice : Choice σ Float}
    {library : Option Accelerators} {onDevice : Device → PointSet Float → Oracle σ Float}
    {b : Backend σ Float} (selected : choice.select library onDevice = .ok b)
    (unowned : choice.oracle = none) {points : PointSet Float} {e : Error}
    (refused : checkFinite points.toGrid "data" = .error e) : b.oracle points = .error e := by
  rw [← Backend.checkCorpus_float] at refused
  cases selects_of_select selected with
  | injected owned =>
      rw [unowned] at owned
      cases owned
  | processor _ _ =>
      rw [Backend.oracle, refused]
      rfl
  | accelerator _ =>
      rw [Backend.oracle, refused]
      rfl

theorem PointSet.map_ofFloat (points : PointSet Float) :
    points.map (Scalar.ofFloat : Float → Float) = points := by
  obtain ⟨dim, rows, _, _, _⟩ := points
  have same_row : (List.map Scalar.ofFloat : List Float → List Float) = id :=
    funext fun row => List.map_id row
  simp only [PointSet.map, same_row, id, List.map_id_fun']

/-- A study whose run fails has failed. -/
theorem Study.failed_of_solve {σ ν κ K : Type} [Add K] [Sub K] [Mul K] [Div K] [Scalar K]
    [Roots K] [BetaTails K] [DecidableEq ν] [DecidableEq κ] {host : Host K}
    {library : Option Accelerators} {onDevice : Device → PointSet K → Oracle σ K} {t : Study σ K}
    (identity : ν) {parent : Node ν} {scene : Scene σ ν κ K} {d : Design Float} {b : Backend σ K}
    {e : Error} (resolved : t.resolveDesign = .ok d)
    (present : checkParent scene.session parent = .ok ())
    (selected : t.choice.select library onDevice = .ok b)
    (failed : (b.solve host (d.map Scalar.ofFloat) scene.oracle).1 = .error e) :
    (t.conduct host library onDevice identity parent scene).1 = .failed e := by
  rw [conduct, compute, resolved, present, selected]
  simp only [Bind.bind, Except.bind, Pure.pure, Except.pure, solve_eq]
  have oracle : (if t.warns scene.channel = true then
      { scene with warned := channelClosedWarning :: scene.warned } else scene).oracle =
        scene.oracle := by
    split <;> rfl
  rw [oracle, failed]
  rfl

namespace Design

/-- The complaint about the infinite coordinates of a design. -/
def refusal (d : Design Float) (parameter : String) : Error :=
  .invalid (.notFinite parameter 0 d.points.infinities)

/-- Nothing that checks the points of a design again accepts them. -/
structure IsRefused (d : Design Float) : Prop where
  infinities : 0 < d.points.infinities
  /-- Its settings make no design. -/
  again : ofSettings d.toSettings = .error (d.refusal "data")
  checked : ∀ parameter, checkPoints d.toSettings.data parameter = .error (d.refusal parameter)
  /-- There is no default oracle over its data. -/
  oracle : ∀ (library : Option Accelerators) (metric : Value) (settings : List (String × Value)),
    (Recipe.ofMetric none metric settings).build library d.toSettings.data =
      .error (d.refusal "data")
  /-- A study in doubles fails for the same reason if its oracle has to be built. -/
  studies : ∀ {σ ν κ : Type} [DecidableEq ν] [DecidableEq κ] (t : Study σ Float)
      (host : Host Float) (library : Option Accelerators)
      (onDevice : Device → PointSet Float → Oracle σ Float) (identity : ν) (parent : Node ν)
      (scene : Scene σ ν κ Float) (b : Backend σ Float),
    t.resolveDesign = .ok d → Study.checkParent scene.session parent = .ok () →
      t.choice.oracle = none → t.choice.select library onDevice = .ok b →
        d.k + 1 ≤ d.points.size →
          (t.conduct host library onDevice identity parent scene).1 = .failed (d.refusal "data")

variable {s : Settings} {d : Design Float}

/-- Infinite coordinates are refused wherever they are checked again. -/
theorem isRefused (built : ofSettings s = .ok d) (infinite : ¬d.points.IsFinite) :
    d.IsRefused := by
  have data := (checks_of_ofSettings built).1
  have unfinite (parameter : String) :
      checkFinite d.points.toGrid parameter = .error (d.refusal parameter) :=
    checkFinite_of_checkPoints data infinite parameter
  have checked (parameter : String) :
      checkPoints d.toSettings.data parameter = .error (d.refusal parameter) := by
    rw [toSettings, checkPoints_toGrid, unfinite]
    rfl
  have infinities := Nat.pos_of_ne_zero (mt (isFinite_iff_infinities data).2 infinite)
  refine ⟨infinities, ?_, checked, fun library metric settings => ?_, ?_⟩
  · rw [ofSettings, checked]
    rfl
  · rw [Recipe.build, Recipe.buildOfMetric, Option.getD_none, checked]
    rfl
  · intro σ ν κ _ _ t host library onDevice identity parent scene b resolved present unowned
      selected enough
    have same : (d.map (Scalar.ofFloat : Float → Float)).points = d.points :=
      PointSet.map_ofFloat d.points
    have refused := Backend.oracle_of_unowned selected unowned (unfinite "data")
    rw [← same] at refused enough
    exact Study.failed_of_solve identity resolved present selected
      (Backend.solve_of_oracle_error host scene.oracle refused enough)

end Design

/-! ## Normal forms -/

namespace Design

/-- The box of a design is there, and it is the same for the bounds as they were given and for
those of the design. -/
def FindsBox (d : Design Float) (s : Settings) : Prop :=
  ∃ box, d.box = .ok box ∧
    estimateBox d.points.toGrid d.toSettings.minima d.toSettings.maxima = .ok box ∧
    estimateBox d.points.toGrid s.minima s.maxima = .ok box

/-- A study of the settings and a study of the design, with nothing else given, end in the same
way, and with the same numbers also where clocks and fresh entropies differ as long as the entropy
of the run is the same. -/
def StandsFor (d : Design Float) (s : Settings) : Prop :=
  ∀ {σ ν κ K : Type} [Add K] [Sub K] [Mul K] [Div K] [Scalar K] [Roots K] [BetaTails K]
    [DecidableEq ν] [DecidableEq κ] (t : Study σ K) (settings : Settings)
    (library : Option Accelerators) (onDevice : Device → PointSet K → Oracle σ K)
    (host host' : Host K) (identity : ν) (parent : Node ν) (scene : Scene σ ν κ K),
    t.design = none → t.settings = s → settings.given = [] →
      (t.withDesign d settings).conduct host library onDevice identity parent scene =
        t.conduct host library onDevice identity parent scene ∧
      (host'.processors = host.processors →
        d.seed.getD host'.freshEntropy = d.seed.getD host.freshEntropy →
        ((t.withDesign d settings).conduct host' library onDevice identity parent
            scene).1.solution?.map (·.report.params) =
          (t.conduct host library onDevice identity parent scene).1.solution?.map
            (·.report.params))

/-- The settings of a design are a normal form of the settings that make it. -/
structure IsNormalForm (d : Design Float) (s : Settings) : Prop where
  /-- They make the same design. -/
  again : ofSettings d.toSettings = .ok d
  box : d.FindsBox s
  /-- Checking the data again changes nothing. -/
  checked : ∀ parameter, checkPoints d.toSettings.data parameter = .ok d.points
  /-- The oracle of a metric that is built over the data is the one over the points. -/
  oracle : ∀ (library : Option Accelerators) (metric : Value) (settings : List (String × Value)),
    (Recipe.ofMetric none metric settings).build library d.toSettings.data =
      Oracle.ofMetric d.points metric settings
  /-- That of the default metric is always there. -/
  euclidean : ∀ library : Option Accelerators,
    (Recipe.ofMetric none (.text "euclidean") []).build library d.toSettings.data =
      .ok (Oracle.tree d.points 2)
  studies : d.StandsFor s

variable {s : Settings} {d : Design Float}

theorem standsFor (built : ofSettings s = .ok d) : d.StandsFor s := by
  intro σ ν κ K _ _ _ _ _ _ _ _ _ t settings library onDevice host host' identity parent scene
    fresh given untouched
  have resolved : t.resolveDesign = .ok d := by
    rw [resolveDesign_of_fresh fresh, given, built]
  exact ⟨Study.conduct_withDesign resolved untouched, Study.params_withDesign resolved untouched⟩

theorem isNormalForm (built : ofSettings s = .ok d) (finite : d.points.IsFinite) :
    d.IsNormalForm s where
  again := ofSettings_toSettings built finite
  box := estimateBox_eq built
  checked parameter := (checkPoints_toGrid_iff parameter).2 finite
  oracle := build_toSettings finite
  euclidean library := by
    rw [build_toSettings finite]
    rfl
  studies := standsFor built

/-- The settings of a design are a normal form of the settings that make it if and only if every
number in extended precision among the data lies in the range of doubles. The box and the studies
are the same in any case. Where a number lies beyond the range, some coordinates of the design are
infinite, and the check that let the number pass refuses them: the settings of the design make no
design, there is no default oracle over its data, and a study that has to build its oracle
fails. -/
theorem isNormalForm_iff_fitsDoubles (built : ofSettings s = .ok d) :
    (d.IsNormalForm s ↔ s.data.FitsDoubles) ∧ d.FindsBox s ∧ d.StandsFor s ∧
      (¬s.data.FitsDoubles → d.IsRefused) := by
  rw [← isFinite_points_iff built]
  refine ⟨⟨fun normal => ?_, isNormalForm built⟩, estimateBox_eq built, standsFor built,
    isRefused built⟩
  exact (checkPoints_toGrid_iff "data").1 (normal.checked "data")

end Design

/-- Three points of a plane, in a box whose bounds are a number for both axes and a list of one
entry. -/
def planeSettings : Settings where
  data := .list [.list [.int 0, .int 0], .list [.int 1, .int 2], .tuple [.int 3, .int 1]]
  minima := .int (-1)
  maxima := .list [.int 4]
  jobs := .int (-1)

theorem exists_design_planeSettings :
    ∃ d, Design.ofSettings planeSettings = .ok d ∧ d.k + 1 ≤ d.points.size :=
  exists_design_of_any (by decide +kernel)

theorem fitsDoubles_planeSettings : planeSettings.data.FitsDoubles := by
  have none_wide : ∀ c ∈ planeSettings.data.leaves, c.extended? = none := by decide +kernel
  intro c mem x wide
  rw [none_wide c mem] at wide
  cases wide

/-- The design has a bound for each axis, and its settings make it again, in a study as well. -/
theorem isNormalForm_planeSettings :
    ∃ d, Design.ofSettings planeSettings = .ok d ∧ d.IsNormalForm planeSettings := by
  obtain ⟨d, built, -⟩ := exists_design_planeSettings
  exact ⟨d, built, (Design.isNormalForm_iff_fitsDoubles built).1.2 fitsDoubles_planeSettings⟩

/-- Two points of a line in extended precision, one of them beyond the range of doubles. -/
def farSettings : Settings where
  data := .toArray .wide (.list [.list [.int 1], .list [.int (10 ^ 400)]])

theorem exists_design_farSettings :
    ∃ d, Design.ofSettings farSettings = .ok d ∧ d.points.infinities = 1 :=
  exists_design_of_any (by decide +kernel)

/-- They make a design whose own settings make none, and there is no default oracle over its
data. -/
theorem not_isNormalForm_farSettings :
    ∃ d, Design.ofSettings farSettings = .ok d ∧
      Design.ofSettings d.toSettings = .error (.invalid (.notFinite "data" 0 1)) ∧
      (Recipe.ofMetric none (.text "euclidean") []).build none d.toSettings.data =
        .error (.invalid (.notFinite "data" 0 1)) ∧
      ¬d.IsNormalForm farSettings := by
  obtain ⟨d, built, one⟩ := exists_design_farSettings
  have infinite : ¬d.points.IsFinite := by
    rw [isFinite_iff_infinities (Design.checks_of_ofSettings built).1, one]
    exact one_ne_zero
  have refused := Design.isRefused built infinite
  have complaint : d.refusal "data" = .invalid (.notFinite "data" 0 1) := by
    rw [Design.refusal, one]
  refine ⟨d, built, ?_, ?_, fun normal => ?_⟩
  · rw [refused.again, complaint]
  · rw [refused.oracle, complaint]
  · exact absurd normal.again (by rw [refused.again]; exact nofun)

end PointPattern
