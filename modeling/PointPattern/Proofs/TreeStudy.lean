/-
# Studies by tree search

A study that measures by a Minkowski metric, on the processor and with an oracle of its own,
fails for two reasons only: its settings are refused, or the data have too few points for the
rank. Both are found before any oracle is asked. Everything else that a run could complain of
has been ruled out by then: the tree accepts every rank and every block of the run and gives
distances, there are as many rows as a sample needs, what was checked passes again, and the
mean share has a p-value.
-/

import PointPattern.Proofs.Accepted
import PointPattern.Proofs.Double.Order
import PointPattern.Proofs.Stages
import PointPattern.Proofs.TreeSearch

namespace PointPattern

/-! ## Metrics -/

/-- The metrics that the tree answers for, with their orders: those with a name of their own,
without settings, and the general one, whose order is a setting of one at least, or two if it is
not set. -/
inductive Oracle.IsTreeMetric (metric : Value) (settings : List (String × Value)) : Float → Prop
  | named {name : String} {order : Float} (called : metric.text? = some name)
    (known : Oracle.treeMetrics.lookup name = some order) (plain : settings = []) :
    IsTreeMetric metric settings order
  | general {p : Value} {order : Float} (called : metric.text? = some "minkowski")
    (setting : settings = [("p", p)]) (read : p.toReal = .ok order) (norm : 1 ≤ order) :
    IsTreeMetric metric settings order
  | quadratic (called : metric.text? = some "minkowski") (plain : settings = []) :
    IsTreeMetric metric settings 2

section Metric

variable {metric : Value} {settings : List (String × Value)} {order : Float}

theorem lookup_minkowski : Oracle.treeMetrics.lookup "minkowski" = none := by decide

/-- The tree is used for these metrics. -/
theorem treeOrder_of_isTreeMetric (tree : Oracle.IsTreeMetric metric settings order) :
    Oracle.treeOrder? metric settings = .ok (some order) := by
  cases tree with
  | named called known plain =>
      rw [Oracle.treeOrder?, called]
      dsimp only
      rw [known, plain]
      rfl
  | @general p _ called setting read norm =>
      rw [Oracle.treeOrder?, called]
      dsimp only
      rw [lookup_minkowski, setting]
      show p.toReal.map some = _
      rw [read]
      rfl
  | quadratic called plain =>
      rw [Oracle.treeOrder?, called]
      dsimp only
      rw [lookup_minkowski, plain]
      rfl

/-- Their orders are those of norms. -/
theorem norm_of_isTreeMetric (tree : Oracle.IsTreeMetric metric settings order) :
    ¬order < 1 := by
  cases tree with
  | @named name _ called known plain =>
      have norms : ∀ entry ∈ Oracle.treeMetrics, ¬entry.2 < 1 := by decide +kernel
      obtain ⟨before, after, entries, -⟩ := List.lookup_eq_some_iff.1 known
      exact norms (name, order) (entries ▸ List.mem_append_cons_self)
  | general called setting read norm => exact Double.not_lt_of_le norm
  | quadratic called plain => decide +kernel

end Metric

/-! ## Studies without publication -/

section Studies

variable {σ ν κ K : Type}

/-- The same study with another oracle of the caller, or with none. -/
def Study.withOracle (t : Study σ K) (oracle : Option (Oracle σ K)) : Study σ K :=
  { t with choice := { t.choice with oracle } }

/-- A study of new settings, on the processor, that publishes nothing. -/
structure Study.IsQuiet (t : Study σ K) : Prop where
  fresh : t.design = none
  processor : t.choice.backend.text? = some "cpu"
  silent : t.publish.isTrue = false

/-- A quiet study whose neighbors are found by tree search. -/
structure Study.SearchesTree (t : Study σ K) : Prop extends t.IsQuiet where
  unowned : t.choice.oracle = none
  metric : ∃ fields order,
    t.choice.settings = .ok fields ∧ Oracle.IsTreeMetric t.choice.metric fields order

variable {library : Option Accelerators} {onDevice : Device → PointSet K → Oracle σ K}
variable {t : Study σ K}

theorem Study.IsQuiet.withOracle (quiet : t.IsQuiet) (oracle : Option (Oracle σ K)) :
    (t.withOracle oracle).IsQuiet :=
  ⟨quiet.fresh, quiet.processor, quiet.silent⟩

/-- On the processor a study uses the oracle of the caller, or else that of the metric. -/
theorem select_of_processor {c : Choice σ K} {fields : List (String × Value)}
    (processor : c.backend.text? = some "cpu") (settings : c.settings = .ok fields) :
    c.select library onDevice = .ok (match c.oracle with
      | some oracle => .injected oracle
      | none => .processor c.metric fields) := by
  rw [Choice.select, processor, settings]
  cases c.oracle <;> rfl

theorem resolveDesign_of_fresh (fresh : t.design = none) :
    t.resolveDesign = Design.ofSettings t.settings := by
  rw [Study.resolveDesign, fresh]

/-- Nothing is published by a study that is not to publish. -/
theorem not_warns (silent : t.publish.isTrue = false) (channel : Channel K) :
    t.warns channel = false := by
  rw [Study.warns, silent, Bool.false_and]

variable [Add K] [Sub K] [Mul K] [Div K] [Scalar K] [Roots K] [BetaTails K]
variable [DecidableEq ν] [DecidableEq κ]
variable {host : Host K} {identity : ν} {parent : Node ν} {scene : Scene σ ν κ K}

/-- Settings that are refused end the study before anything else happens. -/
theorem conduct_of_refused (fresh : t.design = none) {e : Error}
    (refused : Design.ofSettings t.settings = .error e) :
    t.conduct host library onDevice identity parent scene = (.failed e, scene) := by
  rw [Study.conduct, Study.compute, resolveDesign_of_fresh fresh, refused]
  rfl

/-- With a design and a backend, the run decides. -/
theorem conduct_of_selected (quiet : t.IsQuiet) (alone : scene.session = none)
    {d : Design Float} (built : Design.ofSettings t.settings = .ok d) {b : Backend σ K}
    (selected : t.choice.select library onDevice = .ok b) :
    t.conduct host library onDevice identity parent scene =
      match (b.solve host (d.map Scalar.ofFloat) scene.oracle) with
      | (.error e, oracle) => (.failed e, { scene with oracle })
      | (.ok report, oracle) =>
        (.solved (Study.solutionOf false d.seed report), { scene with oracle }) := by
  obtain ⟨oracle, channel, session, warned⟩ := scene
  subst alone
  rw [Study.conduct, Study.compute, resolveDesign_of_fresh quiet.fresh, built, selected]
  simp only [Bind.bind, Except.bind, Pure.pure, Except.pure, Study.checkParent,
    not_warns quiet.silent, Bool.false_eq_true, if_false, Study.solve_eq]
  rcases b.solve host (d.map Scalar.ofFloat) oracle with ⟨e | report, oracle'⟩
  · rfl
  · simp only [Study.records, quiet.silent, Bool.false_eq_true, if_false, Except.map,
      Study.conclude, Channel.emitAll]
    rfl

/-- Too few points for the rank end the study before anything is asked, whatever oracle there
is. -/
theorem conduct_of_few (quiet : t.IsQuiet) (alone : scene.session = none)
    {fields : List (String × Value)} (settings : t.choice.settings = .ok fields)
    {d : Design Float} (built : Design.ofSettings t.settings = .ok d)
    (few : d.points.size < d.k + 1) :
    t.conduct host library onDevice identity parent scene =
      (.failed (.oracle (.tooFewPoints d.k d.points.size) (some (d.k + 1 : ℕ)) none), scene) := by
  have size_eq : (d.map (Scalar.ofFloat : Float → K)).points.size = d.points.size := by
    simp [Design.map, PointSet.map, PointSet.size]
  have few' : (d.map (Scalar.ofFloat : Float → K)).points.size < d.k + 1 := size_eq ▸ few
  rw [conduct_of_selected quiet alone built (select_of_processor quiet.processor settings),
    Backend.solve_of_few host scene.oracle (by cases t.choice.oracle <;> rfl) few', size_eq]
  rfl

end Studies

/-! ## Studies that search a tree -/

section Exact

variable {σ ν κ K : Type} [Field K] [LinearOrder K] [IsStrictOrderedRing K] [Scalar K]
variable [Scalar.Exact K] [Roots K] [Roots.NonNeg K] [BetaTails K] [BetaTails.Exact K]
variable [DecidableEq ν] [DecidableEq κ]

/-- With enough points the tree leaves nothing to fail. -/
theorem solved_of_enough {host : Host K} {library : Option Accelerators}
    {onDevice : Device → PointSet K → Oracle σ K} {t : Study σ K} {identity : ν}
    {parent : Node ν} {scene : Scene σ ν κ K} (searches : t.SearchesTree)
    (alone : scene.session = none) {d : Design Float}
    (built : Design.ofSettings t.settings = .ok d) (enough : d.k + 1 ≤ d.points.size) :
    ∃ solution, (t.conduct host library onDevice identity parent scene).1 = .solved solution := by
  obtain ⟨fields, order, settings, metric⟩ := searches.metric
  have selected : t.choice.select library onDevice =
      .ok (.processor t.choice.metric fields) := by
    rw [select_of_processor searches.processor settings, searches.unowned]
  let d' : Design K := d.map Scalar.ofFloat
  have ready : (Backend.processor t.choice.metric fields : Backend σ K).oracle d'.points =
      .ok (Oracle.tree d'.points order) := by
    rw [Backend.oracle_processor, Oracle.ofMetric, treeOrder_of_isTreeMetric metric]
    rfl
  have size_eq : d'.points.size = d.points.size := by
    simp [d', Design.map, PointSet.map, PointSet.size]
  obtain ⟨report, reported, -⟩ := report_of_answers host scene.oracle ready
    (enough.trans_eq size_eq.symm) (answers_tree d'.points (norm_of_isTreeMetric metric))
  rw [conduct_of_selected searches.toIsQuiet alone built selected]
  rcases solved : Backend.solve host (.processor t.choice.metric fields) d' scene.oracle with
    ⟨result, oracle⟩
  rw [solved] at reported
  cases reported
  exact ⟨_, rfl⟩

/-- Without rounding, a study that searches a tree and publishes nothing ends in a solution if and
only if its settings make a design and the data have more points than the rank. Settings that are
refused end it with their own error, and too few points with the one that names the rank and the
number of points. Both are found while everything is as it was, in particular before any oracle
is asked: with an oracle of the caller, whatever it is, the study ends in the same way and leaves
the state of the oracle alone. What was checked when the design was built passes again: the points
as the run has them, the bounds, and the data themselves if their numbers fit doubles, where a run
that rounds would first lose what is beyond. -/
theorem conduct_tree (host : Host K) (library : Option Accelerators)
    (onDevice : Device → PointSet K → Oracle σ K) (t : Study σ K) (identity : ν)
    (parent : Node ν) (scene : Scene σ ν κ K) (searches : t.SearchesTree)
    (alone : scene.session = none) :
    ((∃ solution, (t.conduct host library onDevice identity parent scene).1 = .solved solution) ↔
        ∃ d, Design.ofSettings t.settings = .ok d ∧ d.k + 1 ≤ d.points.size) ∧
      (∀ e, Design.ofSettings t.settings = .error e → ∀ oracle,
        (t.withOracle oracle).conduct host library onDevice identity parent scene =
          (.failed e, scene)) ∧
      ∀ d, Design.ofSettings t.settings = .ok d →
        (d.points.size < d.k + 1 → ∀ oracle,
          (t.withOracle oracle).conduct host library onDevice identity parent scene =
            (.failed (.oracle (.tooFewPoints d.k d.points.size) (some (d.k + 1 : ℕ)) none),
              scene)) ∧
        Backend.checkCorpus (d.points.map Scalar.ofFloat : PointSet K) = .ok () ∧
        ∀ parameter,
          (t.settings.data.FitsDoubles → checkPoints d.toSettings.data parameter = .ok d.points) ∧
          estimateBox d.points.toGrid d.toSettings.minima d.toSettings.maxima = d.box := by
  obtain ⟨fields, _, settings, _⟩ := searches.metric
  have refused (e : Error) (refused : Design.ofSettings t.settings = .error e)
      (oracle : Option (Oracle σ K)) :
      (t.withOracle oracle).conduct host library onDevice identity parent scene =
        (.failed e, scene) := by
    have same : (t.withOracle oracle).settings = t.settings := rfl
    rw [← same] at refused
    exact conduct_of_refused (searches.toIsQuiet.withOracle oracle).fresh refused
  have few (d : Design Float) (built : Design.ofSettings t.settings = .ok d)
      (few : d.points.size < d.k + 1) (oracle : Option (Oracle σ K)) :
      (t.withOracle oracle).conduct host library onDevice identity parent scene =
        (.failed (.oracle (.tooFewPoints d.k d.points.size) (some (d.k + 1 : ℕ)) none), scene) := by
    have same : (t.withOracle oracle).settings = t.settings := rfl
    rw [← same] at built
    exact conduct_of_few (searches.toIsQuiet.withOracle oracle) alone settings built few
  refine ⟨⟨?_, ?_⟩, refused, fun d built => ⟨few d built, Backend.checkCorpus_ok _,
    fun parameter => ⟨fun fits => ?_, Design.estimateBox_toSettings built⟩⟩⟩
  · rintro ⟨solution, solved⟩
    cases built : Design.ofSettings t.settings with
    | error e =>
        rw [conduct_of_refused searches.fresh built] at solved
        cases solved
    | ok d =>
        refine ⟨d, rfl, Nat.not_lt.1 fun too_few => ?_⟩
        rw [conduct_of_few searches.toIsQuiet alone settings built too_few] at solved
        cases solved
  · rintro ⟨d, built, enough⟩
    exact solved_of_enough searches alone built enough
  · exact (checkPoints_toGrid_iff parameter).2 ((Design.isFinite_points_iff built).2 fits)

end Exact

/-! ## A study of three points -/

/-- Three points of a line. -/
def lineSettings : Settings where
  data := .list [.int 0, .int 1, .int 3]
  seed := .int 7

/-- A study of three points of a line by the metric of order three. -/
def lineStudy : Study Unit ℚ where
  design := none
  settings := lineSettings
  choice := { metric := .text "minkowski", metricSettings := .record [("p", .real 3)] }
  publish := .bool false

theorem searchesTree_lineStudy : lineStudy.SearchesTree where
  fresh := rfl
  processor := rfl
  silent := rfl
  unowned := rfl
  metric := ⟨[("p", .real 3)], 3, rfl, .general rfl rfl rfl (by decide +kernel)⟩

/-- Whether settings make a design with a property can be computed. -/
theorem exists_design_of_any {s : Settings} {p : Design Float → Prop} [DecidablePred p]
    (found : ((Design.ofSettings s).toOption.any fun d => p d) = true) :
    ∃ d, Design.ofSettings s = .ok d ∧ p d := by
  cases built : Design.ofSettings s with
  | error e =>
      rw [built] at found
      cases found
  | ok d => exact ⟨d, rfl, by simpa [built, Except.toOption] using found⟩

theorem enough_lineSettings :
    ∃ d, Design.ofSettings lineSettings = .ok d ∧ d.k + 1 ≤ d.points.size :=
  exists_design_of_any (by decide +kernel)

/-- The study ends in a solution; nothing has to be computed to see this. -/
theorem conduct_tree_lineStudy :
    lineStudy.SearchesTree ∧ ∃ solution,
      (lineStudy.conduct twoProcessors none (fun _ points => Oracle.tree points 2) 0 .null
        (⟨(), ⟨0, 0, [], [], []⟩, none, []⟩ : Scene Unit ℕ String ℚ)).1 = .solved solution :=
  ⟨searchesTree_lineStudy, (conduct_tree twoProcessors none (fun _ points => Oracle.tree points 2)
    lineStudy 0 .null ⟨(), ⟨0, 0, [], [], []⟩, none, []⟩ searchesTree_lineStudy rfl).1.2
      enough_lineSettings⟩

end PointPattern
