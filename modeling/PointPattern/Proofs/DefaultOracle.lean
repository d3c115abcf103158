/-
# The default oracle and exhaustive search

The default oracle of a metric is a tree for the names of Minkowski metrics without settings and
for the general Minkowski metric with no setting but its order; for everything else it is
exhaustive search itself. Where exhaustive search answers a block of finite queries, the metric of
the tree is the one that was asked for, and both select from the same distances. They part in one
case: exhaustive search takes every positive order, and the tree has no answer below one. Nor do
they know the same names: what the tree knows under two names has one name for exhaustive search.
-/

import PointPattern.Oracle.Corpus
import PointPattern.Proofs.Double.Outcome
import PointPattern.Proofs.Results
import PointPattern.Proofs.TreeStudy

namespace PointPattern

/-! ## Which metrics the tree gets -/

/-- The general Minkowski metric with a positive order below one, and with no other setting. -/
structure Oracle.IsBelowNorms (metric : Value) (settings : List (String × Value)) : Prop where
  called : metric = .text "minkowski"
  alone : ∀ setting ∈ settings, setting.1 = "p"
  small : ∃ order, Metric.orderOf settings = .ok order ∧ order < 1

section Dispatch

variable {metric : Value} {settings : List (String × Value)} {dim : ℕ} {resolved : Metric}

theorem eq_text_of_text? {v : Value} {name : String} (called : v.text? = some name) :
    v = .text name := by
  cases v with
  | text s => rw [Option.some.inj called]
  | _ => cases called

/-- A name that the tree answers for is that of a Minkowski metric, if it is one at all. -/
theorem resolve_of_treeMetrics {name : String} {order : Float}
    (known : Oracle.treeMetrics.lookup name = some order)
    (answered : Metric.resolve (.text name) dim [] = .ok resolved) :
    resolved = .minkowski order none := by
  obtain ⟨before, after, entries, -⟩ := List.lookup_eq_some_iff.1 known
  have mem : (name, order) ∈ Oracle.treeMetrics := entries ▸ List.mem_append_cons_self
  simp only [Oracle.treeMetrics, List.mem_cons, Prod.mk.injEq, List.not_mem_nil, or_false] at mem
  have unknown : Metric.Named.ofName? "manhattan" = none := by decide
  rcases mem with ⟨rfl, rfl⟩ | ⟨rfl, rfl⟩ | ⟨rfl, rfl⟩ | ⟨rfl, rfl⟩
  · exact (Except.ok.inj answered).symm
  · rw [Metric.resolve, unknown] at answered
    cases answered
  · exact (Except.ok.inj answered).symm
  · exact (Except.ok.inj answered).symm

/-- With no other setting the general Minkowski metric is the one of its order. -/
theorem resolve_minkowski (alone : ∀ setting ∈ settings, setting.1 = "p") :
    Metric.resolve (.text "minkowski") dim settings =
      (Metric.orderOf settings).map (.minkowski · none) := by
  have known : Metric.Named.ofName? "minkowski" = some .minkowski := by decide
  have allowed : ∀ setting ∈ settings,
      Metric.Named.minkowski.settings.contains setting.1 = true := by
    intro setting mem
    simp [alone setting mem, Metric.Named.settings]
  have unweighted : Metric.weightsOf dim settings = .ok none := by
    have absent : Value.field? "w" settings = none := by
      rw [Value.field?, List.lookup_eq_none_iff]
      intro setting mem
      rw [alone setting mem]
      decide
    rw [Metric.weightsOf, absent]
    rfl
  rw [Metric.resolve, known]
  dsimp only
  rw [Metric.Named.resolve.eq_def, List.find?_eq_none.2 (by simpa using allowed)]
  cases Metric.orderOf settings with
  | error e => rfl
  | ok order =>
      rw [unweighted]
      rfl

/-- The order that exhaustive search reads is the one that is looked up for the tree. -/
theorem lookup_of_orderOf {order : Float} (ordered : Metric.orderOf settings = .ok order) :
    (match Value.field? "p" settings with
      | none => .ok (some 2)
      | some p => p.toReal.map some) = (.ok (some order) : Except Error (Option Float)) := by
  rw [Metric.orderOf] at ordered
  cases found : Value.field? "p" settings with
  | none =>
      rw [found] at ordered
      cases ordered
      rfl
  | some p =>
      rw [found] at ordered
      obtain ⟨read, read_eq, checked⟩ := exists_of_bind_eq_ok ordered
      dsimp only at checked ⊢
      rw [read_eq]
      split at checked
      · cases checked
      · cases checked
        rfl

theorem not_isBelowNorms_of_ne (other : metric ≠ .text "minkowski") :
    ¬Oracle.IsBelowNorms metric settings :=
  fun below => other below.called

/-- What the default oracle of a metric is that exhaustive search can measure by: the tree of the
same metric, which may have an order below one, or exhaustive search. -/
theorem treeOrder_of_resolve (answered : Metric.resolve metric dim settings = .ok resolved) :
    (∃ order, Oracle.treeOrder? metric settings = .ok (some order) ∧
        resolved = .minkowski order none ∧
        (order < 1 ↔ Oracle.IsBelowNorms metric settings)) ∨
      Oracle.treeOrder? metric settings = .ok none ∧
        ¬Oracle.IsBelowNorms metric settings := by
  rw [Oracle.treeOrder?]
  cases called : metric.text? with
  | none => exact .inr ⟨rfl, not_isBelowNorms_of_ne (by rintro rfl; cases called)⟩
  | some name =>
      obtain rfl := eq_text_of_text? called
      dsimp only
      cases known : Oracle.treeMetrics.lookup name with
      | some order =>
          have other : Value.text name ≠ .text "minkowski" := by
            rintro ⟨⟩
            rw [lookup_minkowski] at known
            cases known
          cases settings with
          | cons setting rest => exact .inr ⟨rfl, not_isBelowNorms_of_ne other⟩
          | nil =>
              have norm : ¬order < 1 := norm_of_isTreeMetric (.named called known rfl)
              exact .inl ⟨order, rfl, resolve_of_treeMetrics known answered,
                iff_of_false norm (not_isBelowNorms_of_ne other)⟩
      | none =>
          dsimp only
          split
          · next general =>
              obtain ⟨rfl, alone⟩ : name = "minkowski" ∧ ∀ setting ∈ settings, setting.1 = "p" := by
                simpa using general
              rw [resolve_minkowski alone] at answered
              obtain ⟨order, ordered, rfl⟩ := ok_of_map answered
              refine .inl ⟨order, lookup_of_orderOf ordered, rfl,
                fun small => ⟨rfl, alone, order, ordered, small⟩, ?_⟩
              rintro ⟨-, -, order', ordered', small⟩
              cases ordered.symm.trans ordered'
              exact small
          · next special =>
              refine .inr ⟨rfl, fun below => special ?_⟩
              cases below.called
              simpa using below.alone

end Dispatch

/-! ## Answers -/

section Answers

variable {σ K : Type} [Add K] [Sub K] [Mul K] [Div K] [Scalar K] [Roots K]
variable {points : PointSet K} {metric : Value} {settings : List (String × Value)} {g : Grid K}
variable {rank : ℤ} {answers : Grid K}

omit [Add K] [Sub K] [Mul K] [Div K] [Scalar K] [Roots K] in
/-- The coordinates of the query points of a block are among its values. -/
theorem mem_of_mem_queries {dim : ℕ} {block : List (List K)}
    (queried : Oracle.queries g dim = .ok block) {query : List K} (query_mem : query ∈ block)
    {x : K} (mem : x ∈ query) : x ∈ g.values := by
  have same : (Oracle.asBlock g).values = g.values := by
    rw [Oracle.asBlock]
    split <;> rfl
  rw [Oracle.queries] at queried
  split at queried
  · split at queried
    · cases queried
      exact same ▸ mem_of_mem_cut query_mem mem
    · cases queried
  · cases queried

/-- What exhaustive search answers is what it finds by the metric that it was asked for. -/
theorem exists_of_exhaustiveAnswer
    (answered : Oracle.exhaustiveAnswer points metric settings g rank = .ok answers) :
    ∃ place block resolved, Oracle.checkRank rank points.size = .ok place ∧
      Oracle.queries g points.dim = .ok block ∧
      Metric.resolve metric points.dim settings = .ok resolved ∧
      answers = Oracle.rankedDistances resolved.distance points.points place block := by
  obtain ⟨place, within, answered⟩ := exists_of_bind_eq_ok answered
  obtain ⟨block, queried, answered⟩ := exists_of_bind_eq_ok answered
  obtain ⟨resolved, found, answered⟩ := exists_of_bind_eq_ok answered
  exact ⟨place, block, resolved, within, queried, found, (Except.ok.inj answered).symm⟩

/-- The tree gives the answers of exhaustive search by its own metric to finite queries, unless
its order is below one. -/
theorem treeAnswer_of_exhaustiveAnswer {order : Float}
    (finite : ∀ x ∈ g.values, Scalar.isFinite x = true)
    (resolved : Metric.resolve metric points.dim settings = .ok (.minkowski order none))
    (answered : Oracle.exhaustiveAnswer points metric settings g rank = .ok answers) :
    Oracle.treeAnswer points order g rank =
      if order < 1 then .error (.metric .orderBelowOne) else .ok answers := by
  obtain ⟨place, block, found, within, queried, found_eq, rfl⟩ :=
    exists_of_exhaustiveAnswer answered
  cases resolved.symm.trans found_eq
  have all_finite : (block.all fun query => query.all Scalar.isFinite) = true := by
    rw [List.all_eq_true]
    intro query query_mem
    rw [List.all_eq_true]
    intro x mem
    exact finite x (mem_of_mem_queries queried query_mem mem)
  rw [Oracle.treeAnswer, within, queried]
  dsimp only [Bind.bind, Except.bind]
  rw [all_finite]
  split <;> rfl

/-- Wherever exhaustive search gives distances to a block of finite queries, the default oracle of
the metric is built, and it gives the same distances to the same queries if and only if the metric
is not the general Minkowski metric with an order below one and no other setting. That one goes to
the tree, which refuses the order when the query comes in. -/
theorem ofMetric_answers_iff (s : σ) (finite : ∀ x ∈ g.values, Scalar.isFinite x = true)
    (answered : (Oracle.exhaustive points metric settings : Oracle σ K).distances g rank s =
      (.ok answers, s)) :
    ∃ o : Oracle σ K, Oracle.ofMetric points metric settings = .ok o ∧
      (o.distances g rank s = (.ok answers, s) ↔ ¬Oracle.IsBelowNorms metric settings) ∧
      (Oracle.IsBelowNorms metric settings →
        o.distances g rank s = (.error (.metric .orderBelowOne), s)) := by
  have answered' : Oracle.exhaustiveAnswer points metric settings g rank = .ok answers :=
    congrArg Prod.fst answered
  obtain ⟨-, -, resolved, -, -, found, -⟩ := exists_of_exhaustiveAnswer answered'
  rw [Oracle.ofMetric]
  rcases treeOrder_of_resolve found with ⟨order, chosen, rfl, small_iff⟩ | ⟨chosen, regular⟩
  · have searched := treeAnswer_of_exhaustiveAnswer finite found answered'
    rw [chosen]
    refine ⟨Oracle.tree points order, rfl, ?_⟩
    show ((Oracle.treeAnswer points order g rank, s) = _ ↔ _) ∧
      (_ → (Oracle.treeAnswer points order g rank, s) = _)
    rw [searched, ← small_iff]
    by_cases small : order < 1
    · rw [if_pos small]
      simp [small]
    · rw [if_neg small]
      simp [small]
  · rw [chosen]
    exact ⟨Oracle.exhaustive points metric settings, rfl, iff_of_true answered regular,
      fun below => absurd below regular⟩

end Answers

/-! ## Two names of one metric -/

/-- Exhaustive search does not know the metric of order one under this name. -/
theorem resolve_manhattan (dim : ℕ) (settings : List (String × Value)) :
    Metric.resolve (.text "manhattan") dim settings =
      .error (.metric (.unknownName "manhattan")) := by
  have unknown : Metric.Named.ofName? "manhattan" = none := by decide
  rw [Metric.resolve, unknown]
  rfl

/-- A name that the tree answers for goes to the tree if it comes without settings, and to
exhaustive search otherwise. -/
theorem treeOrder_of_lookup {name : String} {order : Float}
    (known : Oracle.treeMetrics.lookup name = some order) (settings : List (String × Value)) :
    Oracle.treeOrder? (.text name) settings =
      .ok (if settings.isEmpty then some order else none) := by
  rw [Oracle.treeOrder?]
  dsimp only [Value.text?]
  rw [known]
  cases settings <;> rfl

section Names

variable {σ K : Type} [Add K] [Sub K] [Mul K] [Div K] [Scalar K] [Roots K]
variable {points : PointSet K} {settings : List (String × Value)} {g : Grid K}
variable {rows : List (List K)} {rank : ℤ}

theorem ofMetric_of_lookup {name : String} {order : Float}
    (known : Oracle.treeMetrics.lookup name = some order) (points : PointSet K)
    (settings : List (String × Value)) :
    (Oracle.ofMetric points (.text name) settings : Except Error (Oracle σ K)) =
      .ok (if settings.isEmpty then .tree points order
        else .exhaustive points (.text name) settings) := by
  rw [Oracle.ofMetric, treeOrder_of_lookup known]
  cases settings <;> rfl

/-- What exhaustive search makes of a block for a rank of its points is up to the metric. -/
theorem exhaustiveAnswer_of_queries (metric : Value) (settings : List (String × Value))
    (asked : Oracle.queries g points.dim = .ok rows) (rank_pos : 1 ≤ rank)
    (rank_le : rank ≤ points.size) :
    Oracle.exhaustiveAnswer points metric settings g rank =
      (Metric.resolve metric points.dim settings).map fun resolved =>
        Oracle.rankedDistances resolved.distance points.points rank.toNat rows := by
  rw [Oracle.exhaustiveAnswer, checkRank_of_le rank_pos rank_le, asked]
  cases Metric.resolve metric points.dim settings <;> rfl

/-- The two names of the metric of order one stand for the same default oracle if they come
without settings, and it answers every block of finite queries for every rank of its points. With
settings, axis weights or whatever else, both names are passed on to exhaustive search, which knows
one of them only: under the other name every block is refused. So whatever is answered under the
one name is answered in the same way under the other if and only if there are no settings, or
none that the metric could be used with. -/
theorem ofMetric_synonyms_iff (points : PointSet K) (settings : List (String × Value))
    (asked : Oracle.queries g points.dim = .ok rows)
    (finite : ∀ x ∈ g.values, Scalar.isFinite x = true) (rank_pos : 1 ≤ rank)
    (rank_le : rank ≤ points.size) (s : σ) :
    ∃ cityblock manhattan : Oracle σ K,
      Oracle.ofMetric points (.text "cityblock") settings = .ok cityblock ∧
      Oracle.ofMetric points (.text "manhattan") settings = .ok manhattan ∧
      (settings = [] → ∃ answers, cityblock.distances g rank s = (.ok answers, s) ∧
        manhattan.distances g rank s = (.ok answers, s)) ∧
      (settings ≠ [] →
        manhattan.distances g rank s = (.error (.metric (.unknownName "manhattan")), s)) ∧
      ((∀ answers, cityblock.distances g rank s = (.ok answers, s) →
          manhattan.distances g rank s = (.ok answers, s)) ↔
        settings = [] ∨
          ∃ e, Metric.resolve (.text "cityblock") points.dim settings = .error e) := by
  have cityblock : Oracle.treeMetrics.lookup "cityblock" = some 1 := rfl
  have manhattan : Oracle.treeMetrics.lookup "manhattan" = some 1 := rfl
  refine ⟨_, _, ofMetric_of_lookup cityblock points settings,
    ofMetric_of_lookup manhattan points settings, ?_⟩
  cases settings with
  | nil =>
      have searched := exhaustiveAnswer_of_queries (.text "cityblock") [] asked rank_pos rank_le
      have norm : ¬(1 : Float) < 1 := by decide +kernel
      have unweighted : Metric.resolve (.text "cityblock") points.dim [] =
          .ok (.minkowski 1 none) := rfl
      have answered := treeAnswer_of_exhaustiveAnswer finite unweighted searched
      rw [if_neg norm] at answered
      exact ⟨fun _ => ⟨_, congrArg (·, s) answered, congrArg (·, s) answered⟩, nofun,
        iff_of_true (fun _ same => same) (.inl rfl)⟩
  | cons setting rest =>
      have refused : (Oracle.exhaustive points (.text "manhattan") (setting :: rest) :
          Oracle σ K).distances g rank s =
            (.error (.metric (.unknownName "manhattan")), s) := by
        have searched := exhaustiveAnswer_of_queries (.text "manhattan") (setting :: rest) asked
          rank_pos rank_le
        rw [resolve_manhattan] at searched
        exact congrArg (·, s) searched
      have searched := exhaustiveAnswer_of_queries (.text "cityblock") (setting :: rest) asked
        rank_pos rank_le
      refine ⟨nofun, fun _ => refused, ?_⟩
      cases usable : Metric.resolve (.text "cityblock") points.dim (setting :: rest) with
      | error e =>
          rw [usable] at searched
          refine iff_of_true (fun answers answered => ?_) (.inr ⟨e, rfl⟩)
          have clash := searched.symm.trans (congrArg Prod.fst answered)
          cases clash
      | ok resolved =>
          rw [usable] at searched
          refine iff_of_false (fun same => ?_) (by simp)
          have answered := same _ (congrArg (·, s) searched)
          have clash := refused.symm.trans answered
          cases clash

end Names

/-- With a weight on the only axis of a line, the two names are told apart. -/
theorem ofMetric_synonyms_iff_weightedLine :
    Oracle.queries (⟨[1, 1], [1 / 2]⟩ : Grid ℚ) threePoints.dim = .ok [[1 / 2]] ∧
      ∃ cityblock manhattan : Oracle Unit ℚ,
        Oracle.ofMetric threePoints (.text "cityblock") [("w", .list [.int 2])] = .ok cityblock ∧
        Oracle.ofMetric threePoints (.text "manhattan") [("w", .list [.int 2])] = .ok manhattan ∧
        manhattan.distances ⟨[1, 1], [1 / 2]⟩ 2 () =
          (.error (.metric (.unknownName "manhattan")), ()) ∧
        ¬∀ answers, cityblock.distances ⟨[1, 1], [1 / 2]⟩ 2 () = (.ok answers, ()) →
          manhattan.distances ⟨[1, 1], [1 / 2]⟩ 2 () = (.ok answers, ()) := by
  have asked : Oracle.queries (⟨[1, 1], [1 / 2]⟩ : Grid ℚ) threePoints.dim = .ok [[1 / 2]] := rfl
  have usable : (Metric.resolve (.text "cityblock") threePoints.dim
      [("w", .list [.int 2])]).toOption.isSome = true := by
    decide +kernel
  obtain ⟨cityblock, manhattan, built, built', -, refused, same_iff⟩ :=
    ofMetric_synonyms_iff threePoints [("w", .list [.int 2])] asked (fun _ _ => rfl)
      (by decide : (1 : ℤ) ≤ 2) (by decide) ()
  refine ⟨asked, cityblock, manhattan, built, built', refused (List.cons_ne_nil _ _), ?_⟩
  rw [same_iff]
  rintro (none | ⟨e, unusable⟩)
  · cases none
  · rw [unusable] at usable
    cases usable

/-- The distance of a point of a line to its nearest neighbor, where the axis has a weight of two,
is given under one name of the metric and refused under the other. -/
theorem ofMetric_refuses_weights :
    ∃ cityblock manhattan : Oracle Unit Float,
      Oracle.ofMetric linePoints (.text "cityblock") [("w", .list [.int 2])] = .ok cityblock ∧
      Oracle.ofMetric linePoints (.text "manhattan") [("w", .list [.int 2])] = .ok manhattan ∧
      cityblock.distances ⟨[1, 1], [0.25]⟩ 1 () = (.ok ⟨[1], [0.5]⟩, ()) ∧
      manhattan.distances ⟨[1, 1], [0.25]⟩ 1 () =
        (.error (.metric (.unknownName "manhattan")), ()) := by
  exact ⟨_, _, rfl, rfl, rfl, rfl⟩

/-! ## Orders of one and of a half -/

/-- The distances of two points of a line to their second neighbors, measured with order one. -/
theorem ofMetric_answers_iff_threePoints :
    ∃ o : Oracle Unit ℚ,
      Oracle.ofMetric threePoints (.text "minkowski") [("p", .real 1)] = .ok o ∧
        o.distances ⟨[2, 1], [0, 1 / 2]⟩ 2 () = (.ok ⟨[2], [1, 1 / 2]⟩, ()) := by
  have regular : ¬Oracle.IsBelowNorms (.text "minkowski") [("p", .real 1)] := by
    rintro ⟨-, -, order, ordered, small⟩
    cases ordered
    revert small
    decide +kernel
  have measured : [[0], [1 / 2]].map (Oracle.rankedDistance (Metric.minkowskiDistance 1)
      threePoints.points 2) = [(1 : ℚ), 1 / 2] := by
    decide +kernel
  have answered : (Oracle.exhaustive threePoints (.text "minkowski") [("p", .real 1)] :
      Oracle Unit ℚ).distances ⟨[2, 1], [0, 1 / 2]⟩ 2 () = (.ok ⟨[2], [1, 1 / 2]⟩, ()) := by
    rw [← measured]
    rfl
  obtain ⟨o, built, answers_iff, -⟩ := ofMetric_answers_iff () (fun _ _ => rfl) answered
  exact ⟨o, built, answers_iff.2 regular⟩

/-- With an order of one half exhaustive search has an answer for a point of a line, and the
default oracle of the same metric refuses the same query. -/
theorem ofMetric_refuses_halfOrder :
    (∃ answers, (Oracle.exhaustive linePoints (.text "minkowski") [("p", .real 0.5)] :
        Oracle Unit Float).distances ⟨[1, 1], [0.25]⟩ 1 () = (.ok answers, ())) ∧
      ∃ o : Oracle Unit Float,
        Oracle.ofMetric linePoints (.text "minkowski") [("p", .real 0.5)] = .ok o ∧
          o.distances ⟨[1, 1], [0.25]⟩ 1 () = (.error (.metric .orderBelowOne), ()) := by
  have small : (0.5 : Float) < 1 := by decide +kernel
  have finite : ∀ x ∈ [(0.25 : Float)], Scalar.isFinite x = true := by decide +kernel
  have ordered : Metric.orderOf [("p", .real 0.5)] = .ok 0.5 := rfl
  have resolved : Metric.resolve (.text "minkowski") linePoints.dim [("p", .real 0.5)] =
      .ok (.minkowski 0.5 none) := by
    rw [resolve_minkowski (by simp), ordered]
    rfl
  let distances := Oracle.rankedDistances (Metric.minkowskiDistance 0.5) linePoints.points 1
    [[(0.25 : Float)]]
  have answered : Oracle.exhaustiveAnswer linePoints (.text "minkowski") [("p", .real 0.5)]
      ⟨[1, 1], [0.25]⟩ 1 = .ok distances := by
    rw [Oracle.exhaustiveAnswer, resolved]
    rfl
  refine ⟨⟨distances, congrArg (·, ()) answered⟩, Oracle.tree linePoints 0.5, rfl, ?_⟩
  have refused := treeAnswer_of_exhaustiveAnswer finite resolved answered
  rw [if_pos small] at refused
  exact congrArg (·, ()) refused

end PointPattern
