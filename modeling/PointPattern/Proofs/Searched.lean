/-
# The metric of a default oracle

A default oracle is a tree or exhaustive search, and each answers by a metric that depends on the
name, the settings and the number of coordinates alone. If there is one, the oracle measures its
points by it, whatever the points are. If there is none, there is no oracle, or every block of
queries is refused.
-/

import PointPattern.Proofs.DefaultOracle
import PointPattern.Proofs.Interchange

namespace PointPattern

/-- The metric by which the default oracle of a metric measures points with so many
coordinates. -/
def Metric.searched (metric : Value) (dim : ℕ) (settings : List (String × Value)) :
    Except Error Metric := do
  match ← Oracle.treeOrder? metric settings with
  | some order => if order < 1 then throw (.metric .orderBelowOne) else return .minkowski order none
  | none => Metric.resolve metric dim settings

/-- A metric that exhaustive search can measure by is the one of the default oracle, unless it is
a Minkowski metric of an order below one that the tree was chosen for. -/
theorem searched_of_resolve {metric : Value} {dim : ℕ} {settings : List (String × Value)}
    {resolved : Metric} (found : Metric.resolve metric dim settings = .ok resolved) :
    Metric.searched metric dim settings = .ok resolved ∨
      ∃ order?, Oracle.treeOrder? metric settings = .ok order? ∧
        Metric.searched metric dim settings = .error (.metric .orderBelowOne) := by
  rcases treeOrder_of_resolve found with ⟨order, chosen, rfl, -⟩ | ⟨chosen, -⟩
  · have searched : Metric.searched metric dim settings =
        if order < 1 then .error (.metric .orderBelowOne) else .ok (.minkowski order none) := by
      rw [Metric.searched, chosen]
      rfl
    rw [searched]
    split
    · exact .inr ⟨some order, chosen, rfl⟩
    · exact .inl rfl
  · refine .inl ?_
    rw [Metric.searched, chosen]
    exact found

theorem searched_cityblock (dim : ℕ) :
    Metric.searched (.text "cityblock") dim [] = .ok (.minkowski 1 none) := by
  have norm : ¬(1 : Float) < 1 := by decide +kernel
  show (if (1 : Float) < 1 then .error (.metric .orderBelowOne) else .ok (.minkowski 1 none)) =
    (.ok (.minkowski 1 none) : Except Error Metric)
  rw [if_neg norm]

section Oracles

variable {σ K : Type} [Scalar K]

/-- An oracle that answers with the distances of the ranks to the points, by a measure. -/
def Oracle.Measures (o : Oracle σ K) (measure : List K → List K → K) (points : PointSet K) :
    Prop :=
  o.Computes (fun row rank => Oracle.rankedDistance measure points.points rank.toNat row)
    points.size points.dim

/-- An oracle that refuses every block of queries for a reason. -/
def Oracle.Refuses (o : Oracle σ K) (size dim : ℕ) (e : Error) : Prop :=
  ∀ {rank : ℤ} {rows : List (List K)}, 1 ≤ rank → rank ≤ size →
    (∀ row ∈ rows, row.length = dim) →
    ∀ s, (queryDistances o (.ofRows dim rows) rank s).1 = .error (blockFailure rows.length rank e)

/-! ## Blocks of rows -/

/-- An oracle that answers blocks by the distances of the ranks measures its points. -/
theorem measures_ofBlocks {measure : List K → List K → K} {points : PointSet K}
    {answer : Grid K → ℤ → Except Error (Grid K)}
    (answers : ∀ (rows : List (List K)) (rank : ℤ), (∀ row ∈ rows, row.length = points.dim) →
      1 ≤ rank → rank ≤ points.size →
      answer (.ofRows points.dim rows) rank =
        .ok (Oracle.rankedDistances measure points.points rank.toNat rows))
    (label ownName : String) :
    (Oracle.ofBlocks label ownName points.size answer : Oracle σ K).Measures measure points where
  single single := by cases single
  block _ rows rank s lengths rank_pos rank_le := by
    have answered := answers rows rank lengths rank_pos rank_le
    have counted : (rows.map (Oracle.rankedDistance measure points.points rank.toNat)).length =
      rows.length := List.length_map _
    rw [Oracle.rankedDistances, ← counted] at answered
    exact answered

/-- A block that is refused fails the whole sample. -/
theorem queryDistances_of_refused {dim : ℕ} {answer : Grid K → ℤ → Except Error (Grid K)}
    {rows : List (List K)} {rank : ℤ} {e : Error}
    (refused : answer (.ofRows dim rows) rank = .error e) (label ownName : String) (size : ℕ)
    (s : σ) :
    (queryDistances (Oracle.ofBlocks label ownName size answer) (.ofRows dim rows) rank s).1 =
      .error (blockFailure rows.length rank e) := by
  have batch : (Oracle.ofBlocks label ownName size answer : Oracle σ K).supports .batchQuery =
      true := rfl
  have asked : (askBlock ((Oracle.ofBlocks label ownName size answer : Oracle σ K).distances · rank)
      rank (.ofRows dim rows) rows.length s).1 = .error (blockFailure rows.length rank e) := by
    simp only [askBlock, Oracle.ofBlocks, Step.ofExcept, refused]
  rw [queryDistances, Grid.ofRows]
  dsimp only
  rw [← Grid.ofRows, if_pos batch, bind_ofExcept_fst, asked]
  rfl

omit [Scalar K] in
/-- The queries of a block of rows are the rows. -/
theorem queries_ofRows {dim : ℕ} {rows : List (List K)}
    (lengths : ∀ row ∈ rows, row.length = dim) :
    Oracle.queries (.ofRows dim rows) dim = .ok rows := by
  simp only [Oracle.queries, Oracle.asBlock, Grid.ofRows, if_true, cut_flatten lengths]

/-- An oracle that answers blocks with the distances of the ranks to the points, by a measure. -/
def measuringOracle (measure : List K → List K → K) (points : PointSet K) : Oracle σ K :=
  .ofBlocks "MeasuringOracle" "measuring" points.size fun block rank => do
    let rows ← Oracle.queries block points.dim
    return Oracle.rankedDistances measure points.points rank.toNat rows

theorem measures_measuringOracle (measure : List K → List K → K) (points : PointSet K) :
    (measuringOracle measure points : Oracle σ K).Measures measure points := by
  refine measures_ofBlocks (fun rows rank lengths _ _ => ?_) _ _
  rw [queries_ofRows lengths]
  rfl

end Oracles

/-! ## The two kinds of search -/

section Search

variable {σ K : Type} [Field K] [LinearOrder K] [Scalar K] [Scalar.Exact K] [Roots K]
variable {points : PointSet K} {metric : Value} {settings : List (String × Value)} {e : Error}
variable {rows : List (List K)} {rank : ℤ}

omit [LinearOrder K] [Scalar.Exact K] in
/-- Exhaustive search answers every block of rows for every rank of its points, if it has a
metric. -/
theorem exhaustiveAnswer_ofRows (metric : Value) (settings : List (String × Value))
    (lengths : ∀ row ∈ rows, row.length = points.dim) (rank_pos : 1 ≤ rank)
    (rank_le : rank ≤ points.size) :
    Oracle.exhaustiveAnswer points metric settings (.ofRows points.dim rows) rank =
      (Metric.resolve metric points.dim settings).map fun resolved =>
        Oracle.rankedDistances resolved.distance points.points rank.toNat rows :=
  exhaustiveAnswer_of_queries metric settings (queries_ofRows lengths) rank_pos rank_le

/-- A tree answers every block of rows for every rank of its points, unless its order is below
one. -/
theorem treeAnswer_ofRows (order : Float) (lengths : ∀ row ∈ rows, row.length = points.dim)
    (rank_pos : 1 ≤ rank) (rank_le : rank ≤ points.size) :
    Oracle.treeAnswer points order (.ofRows points.dim rows) rank =
      if order < 1 then .error (.metric .orderBelowOne)
      else .ok (Oracle.rankedDistances (Metric.minkowskiDistance order) points.points rank.toNat
        rows) := by
  have finite : (rows.all fun query => query.all Scalar.isFinite) = true := by simp
  rw [Oracle.treeAnswer, checkRank_of_le rank_pos rank_le, queries_ofRows lengths]
  dsimp only [Bind.bind, Except.bind]
  rw [finite]
  split <;> rfl

/-- The default oracle measures its points by its metric. -/
theorem measures_of_searched {found : Metric}
    (searched : Metric.searched metric points.dim settings = .ok found) :
    ∃ o : Oracle σ K, Oracle.ofMetric points metric settings = .ok o ∧
      o.Measures found.distance points := by
  rw [Metric.searched] at searched
  rw [Oracle.ofMetric]
  cases chosen : Oracle.treeOrder? metric settings with
  | error e =>
      rw [chosen] at searched
      cases searched
  | ok order? =>
      rw [chosen] at searched
      cases order? with
      | some order =>
          refine ⟨Oracle.tree points order, rfl, measures_ofBlocks ?_ _ _⟩
          intro rows rank lengths rank_pos rank_le
          rw [treeAnswer_ofRows order lengths rank_pos rank_le]
          dsimp only [Bind.bind, Except.bind] at searched
          split at searched
          · cases searched
          · next norm =>
              cases searched
              rw [if_neg norm]
              rfl
      | none =>
          have resolved : Metric.resolve metric points.dim settings = .ok found := searched
          refine ⟨Oracle.exhaustive points metric settings, rfl, measures_ofBlocks ?_ _ _⟩
          intro rows rank lengths rank_pos rank_le
          rw [exhaustiveAnswer_ofRows metric settings lengths rank_pos rank_le, resolved]
          rfl

/-- A default oracle without a metric refuses every block. -/
theorem refuses_of_searched {order? : Option Float}
    (chosen : Oracle.treeOrder? metric settings = .ok order?)
    (searched : Metric.searched metric points.dim settings = .error e) :
    ∃ o : Oracle σ K, Oracle.ofMetric points metric settings = .ok o ∧
      o.Refuses points.size points.dim e := by
  rw [Metric.searched, chosen] at searched
  rw [Oracle.ofMetric, chosen]
  cases order? with
  | some order =>
      refine ⟨Oracle.tree points order, rfl, ?_⟩
      intro rank rows rank_pos rank_le lengths s
      apply queryDistances_of_refused
      rw [treeAnswer_ofRows order lengths rank_pos rank_le]
      dsimp only [Bind.bind, Except.bind] at searched
      split at searched
      · next small =>
          cases searched
          rw [if_pos small]
      · cases searched
  | none =>
      have unresolved : Metric.resolve metric points.dim settings = .error e := searched
      refine ⟨Oracle.exhaustive points metric settings, rfl, ?_⟩
      intro rank rows rank_pos rank_le lengths s
      apply queryDistances_of_refused
      rw [exhaustiveAnswer_ofRows metric settings lengths rank_pos rank_le, unresolved]
      rfl

end Search

end PointPattern
