/-
# The rank that a failure names

A failed query is a failure of the oracle, and it should say at which rank the oracle was asked.
Failures of other kinds, answers of the wrong shape and numbers that are no distances are reported
with the rank that was asked for. A failure that the oracle declares itself keeps the rank that it
names. If it names none, the two ways of asking part: a single query fills in the rank, and a whole
block passes the failure on as it is, without one. All failures of the oracle in a run come from
the query of a sample, so that this decides what they name.
-/

import PointPattern.Proofs.Conduct
import PointPattern.Proofs.Double.Outcome
import PointPattern.Proofs.Interrogation

namespace PointPattern

open PointPattern.Random

/-- The rank that a failure names. -/
def Error.rank? : Error → Option ℤ
  | .oracle _ rank _ => rank
  | _ => none

section Queries

variable {σ K : Type}

/-! ## What an oracle raises -/

/-- What an oracle raises when queries are put one after the other until one is not answered. -/
def raisedEach (ask : Grid K → Step σ K) : List (Grid K) → σ → Option Error
  | [], _ => none
  | point :: rest, s =>
    match ask point s with
    | (.error e, _) => some e
    | (.ok _, s) => raisedEach ask rest s

/-- What an oracle itself raises at a block of queries, however it is asked. -/
def Oracle.raised? (o : Oracle σ K) (block : Grid K) (rank : ℤ) (s : σ) : Option Error :=
  if o.supports .batchQuery then
    match (o.distances block rank s).1 with
    | .error e => some e
    | .ok _ => none
  else raisedEach (o.distance · rank) block.subgrids s

/-- The oracle is asked for the whole block and declares a failure that names no rank. -/
def Oracle.LosesRank (o : Oracle σ K) (block : Grid K) (rank : ℤ) (s : σ) : Prop :=
  o.supports .batchQuery = true ∧
    ∃ reason position, o.raised? block rank s = some (.oracle reason none position)

variable {ask : Grid K → Step σ K} {points before : List (Grid K)} {point : Grid K}
variable {s t u : σ} {xs : List K} {e : Error} {rank : ℤ}

theorem raisedEach_of_answers (answers : AnswersEach ask points s xs u) :
    raisedEach ask points s = none := by
  induction answers with
  | nil s => rfl
  | cons answered others ih => simp only [raisedEach, answered, ih]

theorem raisedEach_of_fails (answers : AnswersEach ask before s xs t)
    (fails : ask point t = (.error e, u)) (after : List (Grid K)) :
    raisedEach ask (before ++ point :: after) s = some e := by
  induction answers with
  | nil s => simp only [List.nil_append, raisedEach, fails]
  | cons answered others ih => simp only [List.cons_append, raisedEach, answered, ih fails]

/-! ## Ranks of failures -/

/-- A single query fills in the rank unless the oracle names one. -/
theorem rank?_queryFailure (position : ℕ) (rank : ℤ) (e : Error) :
    (queryFailure position rank e).rank? = some (e.rank?.getD rank) := by
  cases e with
  | oracle reason failedRank failedPosition => cases failedRank <;> rfl
  | _ => rfl

variable [Scalar K]

theorem rank?_of_checkDistances (failed : checkDistances rank xs = .error e) :
    e.rank? = some rank := by
  rw [checkDistances] at failed
  split at failed
  · cases failed
  · cases failed
    rfl

variable {o : Oracle σ K} {block : Grid K} {size : ℕ} {rest : List ℕ}

/-- Where all queries are answered the rank is the one that was asked for. -/
theorem rank?_of_answersAll (shape : block.shape = size :: rest)
    (answers : o.AnswersAll block size rank s xs u)
    (failed : (queryDistances o block rank s).1 = .error e) : e.rank? = some rank := by
  rw [queryDistances_of_answersAll shape answers] at failed
  exact rank?_of_checkDistances failed

/-- What becomes of the rank: the oracle keeps the one that it names, the one that was asked for
stands in for it otherwise, or there is none. -/
inductive Oracle.RankOutcome (o : Oracle σ K) (block : Grid K) (rank : ℤ) (s : σ) (e : Error) : Prop
  | named (kept : ¬o.LosesRank block rank s)
      (rank_eq : e.rank? = some (((o.raised? block rank s).bind Error.rank?).getD rank))
  | lost (loses : o.LosesRank block rank s) (rank_eq : e.rank? = none)

omit [Scalar K] in
theorem Oracle.RankOutcome.of_nothing_raised (silent : o.raised? block rank s = none)
    (rank_eq : e.rank? = some rank) : o.RankOutcome block rank s e := by
  refine .named (fun loses => ?_) ?_
  · obtain ⟨-, reason, position, raised⟩ := loses
    rw [silent] at raised
    cases raised
  · rw [silent]
    exact rank_eq

omit [Scalar K] in
/-- A whole block passes on what the oracle declares, with a rank or without. -/
theorem rankOutcome_blockFailure (batch : o.supports .batchQuery = true) (size : ℕ)
    (raised : o.raised? block rank s = some e) :
    o.RankOutcome block rank s (blockFailure size rank e) := by
  by_cases nameless : ∃ reason position, e = .oracle reason none position
  · obtain ⟨reason, position, rfl⟩ := nameless
    exact .lost ⟨batch, reason, position, raised⟩ rfl
  · refine .named (fun loses => ?_) ?_
    · obtain ⟨-, reason, position, raised'⟩ := loses
      exact nameless ⟨reason, position, Option.some.inj (raised.symm.trans raised')⟩
    · rw [raised]
      cases e with
      | oracle reason failedRank position =>
          cases failedRank with
          | none => exact absurd ⟨reason, position, rfl⟩ nameless
          | some failedRank => rfl
      | _ => rfl

theorem rankOutcome_of_batch (batch : o.supports .batchQuery = true)
    (shape : block.shape = size :: rest)
    (failed : (queryDistances o block rank s).1 = .error e) : o.RankOutcome block rank s e := by
  rcases asked : o.distances block rank s with ⟨own | answers, u⟩
  · rw [queryDistances_of_block_fails batch shape asked] at failed
    cases failed
    exact rankOutcome_blockFailure batch size (by rw [Oracle.raised?, if_pos batch, asked])
  · have silent : o.raised? block rank s = none := by rw [Oracle.raised?, if_pos batch, asked]
    refine .of_nothing_raised silent ?_
    by_cases same : answers.shape = [size]
    · have answered : o.AnswersAll block size rank s answers.values u := by
        rw [Oracle.answersAll_iff_block batch, asked, ← same]
      exact rank?_of_answersAll shape answered failed
    · rw [queryDistances_of_shape_ne batch shape asked same] at failed
      cases failed
      rfl

theorem rankOutcome_of_single (single : o.supports .batchQuery = false)
    (shape : block.shape = size :: rest)
    (failed : (queryDistances o block rank s).1 = .error e) : o.RankOutcome block rank s e := by
  have raised_eq : o.raised? block rank s = raisedEach (o.distance · rank) block.subgrids s := by
    rw [Oracle.raised?, if_neg (by simp [single])]
  rcases answersEach_or_fails (o.distance · rank) block.subgrids s with
    ⟨xs, u, answers⟩ | ⟨before, point, after, xs, t, own, u, split, answers, fails⟩
  · refine .of_nothing_raised (raised_eq.trans (raisedEach_of_answers answers)) ?_
    exact rank?_of_answersAll shape ((Oracle.answersAll_iff_each single).2 answers) failed
  · rw [queryDistances_of_fails single shape split answers fails] at failed
    cases failed
    have raised : o.raised? block rank s = some own := by
      rw [raised_eq, split]
      exact raisedEach_of_fails answers fails after
    refine .named (fun loses => ?_) ?_
    · cases single.symm.trans loses.1
    · rw [raised]
      exact rank?_queryFailure before.length rank own

/-- What a failure of a block of queries says of the rank: it names none exactly if the oracle,
asked for the whole block, declared the failure without one; it names the rank that the oracle
named, if there is one; and it names the rank that was asked for in all other cases. -/
structure Oracle.NamesRank (o : Oracle σ K) (block : Grid K) (rank : ℤ) (s : σ) (e : Error) :
    Prop where
  failure : e.IsOracleFailure
  lost_iff : e.rank? = none ↔ o.LosesRank block rank s
  own : ∀ raised r, o.raised? block rank s = some raised → raised.rank? = some r → e.rank? = some r
  asked : ¬o.LosesRank block rank s →
    (∀ raised, o.raised? block rank s = some raised → raised.rank? = none) → e.rank? = some rank

theorem namesRank_of_queryDistances (shape : block.shape = size :: rest)
    (failed : (queryDistances o block rank s).1 = .error e) : o.NamesRank block rank s e := by
  have outcome : o.RankOutcome block rank s e := by
    cases path : o.supports .batchQuery with
    | true => exact rankOutcome_of_batch path shape failed
    | false => exact rankOutcome_of_single path shape failed
  have failure := isOracleFailure_of_queryDistances shape failed
  cases outcome with
  | named kept rank_eq =>
      refine ⟨failure, iff_of_false (by simp [rank_eq]) kept, ?_, fun _ silent => ?_⟩
      · intro raised r raised_eq names
        rw [rank_eq, raised_eq, Option.bind_some, names]
        rfl
      · rw [rank_eq]
        cases raised_eq : o.raised? block rank s with
        | none => rfl
        | some raised => rw [Option.bind_some, silent raised raised_eq]; rfl
  | lost loses rank_eq =>
      refine ⟨failure, iff_of_true rank_eq loses, ?_, fun kept => absurd loses kept⟩
      intro raised r raised_eq names
      obtain ⟨-, reason, position, nameless⟩ := loses
      rw [nameless] at raised_eq
      cases raised_eq
      cases names

end Queries

/-! ## Failures of a run -/

section Runs

variable {σ K : Type} [Scalar K]

/-- A failure of the queries of a sample: the real sample asks for one rank more than the uniform
one, about rows of the data. -/
inductive Oracle.FailsSample (o : Oracle σ K) (data : PointSet K) (k : ℕ) (e : Error) : Prop
  | real (rows : List (List K)) (s : σ) (chosen : ∀ row ∈ rows, row ∈ data.points)
      (failed : (queryDistances o (.ofRows data.dim rows) (k + 1) s).1 = .error e)
  | uniform (rows : List (List K)) (s : σ) (lengths : ∀ row ∈ rows, row.length = data.dim)
      (failed : (queryDistances o (.ofRows data.dim rows) k s).1 = .error e)

/-- Every failure of the oracle is one of the queries of a sample. -/
def Oracle.FailsBySample (o : Oracle σ K) (data : PointSet K) (k : ℕ) (e : Error) : Prop :=
  e.IsOracleFailure → o.FailsSample data k e

variable {o : Oracle σ K} {data : PointSet K} {box : Box K} {size k dim : ℕ}

/-- A sum that fails is no failure of the oracle. -/
theorem not_isOracleFailure_of_aggregate {xs : List K} {e : Error}
    (failed : aggregate xs dim = .error e) : ¬e.IsOracleFailure := by
  rw [aggregate] at failed
  cases summed : Scalar.sum (xs.map (Scalar.power · (dim : ℤ))) with
  | error reason =>
      rw [summed] at failed
      cases failed
      intro failure
      cases failure
  | ok total =>
      rw [summed] at failed
      cases failed

/-- The sum over a sample fails by its queries alone, as far as the oracle fails. -/
theorem failsBySample_sumOver {rank : ℤ} {rows : List (List K)}
    (sample : ∀ e s, (queryDistances o (.ofRows dim rows) rank s).1 = .error e →
      o.FailsSample data k e) (from_state : σ × Stream) :
    Ends (o.FailsBySample data k) (fun _ => True) (sumOver o dim rank rows from_state).1 := by
  apply Draw.ends_bind (fun _ => True)
  · show Ends _ _ (queryDistances o (.ofRows dim rows) rank from_state.1).1
    cases asked : (queryDistances o (.ofRows dim rows) rank from_state.1).1 with
    | error e => exact .error fun _ => sample e from_state.1 asked
    | ok xs => exact .ok trivial
  · intro xs _ t
    show Ends _ _ (aggregate xs dim)
    cases summed : aggregate xs (dim : ℤ) with
    | error e =>
        exact .error fun failure => absurd failure (not_isOracleFailure_of_aggregate summed)
    | ok total => exact .ok trivial

variable [Add K] [Mul K] [Div K]

/-- A repetition fails by the queries of one of its samples, as far as the oracle fails. -/
theorem failsBySample_repetition (enough : size ≤ data.size) (spans : box.Spans data.dim)
    {stream : ℕ → Stream} (keeps : ∀ j, (stream j).KeepsWord) (j : ℕ) (s : σ) :
    Ends (o.FailsBySample data k) (fun _ => True)
      (repetition o (streamSource K) stream data box size k j s).1 := by
  apply repetition_ends_of_rows (fun _ _ _ _ => trivial) enough spans keeps
  · intro rows chosen t
    exact failsBySample_sumOver (fun e s failed => .real rows s chosen failed) t
  · intro rows lengths t
    exact failsBySample_sumOver (fun e s failed => .uniform rows s lengths failed) t

variable [Sub K] [Roots K] [BetaTails K] {b : Backend σ K} {d : Design K} {e : Error}

omit [Roots K] [BetaTails K] in
theorem failsBySample_sampled (host : Host K) (s : σ) :
    Ends (o.FailsBySample d.points d.k) (fun _ => True) (b.sampled host d o s) := by
  obtain ⟨box, boxed, spans⟩ := d.box_ok
  rw [Backend.sampled_eq host s boxed]
  have each := failsBySample_repetition (o := o) (k := d.k) d.sampleSize_le spans
    (keepsWord_streamOf (d.seed.getD host.freshEntropy))
  exact (runInterleaved_ends each d.repetitions_pos (Backend.workers_pos host)
    (settled_runTurns_turnsInOrder _ _ (Backend.workers_pos host) _)).mono (fun _ fails => fails)
    fun _ _ => trivial

omit [Add K] [Mul K] [Sub K] [Roots K] in
/-- A p-value that cannot be computed is no failure of the oracle. -/
theorem not_isOracleFailure_of_pValue {x : K}
    (failed : Significance.pValue x size = .error e) : ¬e.IsOracleFailure := by
  rw [Significance.pValue, Significance.regularizedBeta] at failed
  split_ifs at failed
  all_goals
    cases failed
    intro failure
    cases failure

/-- A failure of the oracle in a run with an oracle and enough points is one of a sample. -/
theorem failsSample_of_solve {host : Host K} {s : σ} (ready : b.oracle d.points = .ok o)
    (enough : d.k + 1 ≤ d.points.size) (failed : (b.solve host d s).1 = .error e)
    (failure : e.IsOracleFailure) : o.FailsSample d.points d.k e := by
  obtain ⟨box, boxed, -⟩ := d.box_ok
  have reported := Backend.params_solve host s ready boxed enough
  rw [failed] at reported
  have sampled := failsBySample_sampled (b := b) (d := d) (o := o) host s
  cases ran : b.sampled host d o s with
  | error e' =>
      rw [ran] at reported sampled
      obtain rfl := Except.error.inj reported
      exact sampled.failure rfl failure
  | ok summary =>
      rw [ran] at reported
      dsimp only [Bind.bind, Except.bind] at reported
      cases significance : Significance.pValue summary.tally.h.mean d.sampleSize with
      | error e' =>
          rw [significance] at reported
          obtain rfl := Except.error.inj reported
          exact absurd failure (not_isOracleFailure_of_pValue significance)
      | ok pValue =>
          rw [significance] at reported
          cases reported

end Runs

/-- Take any oracle, any block of points, any rank and any state of the oracle. If the block fails,
the failure is one of the oracle, and it names no rank exactly if the oracle was asked for the whole
block and declared a failure without a rank. Otherwise it names the rank that the oracle named, and
the rank that was asked for if the oracle named none. The failures of the oracle in a run, once it
has an oracle and enough points, are failures of this kind: of the real sample, at one rank more
than that of the design, or of the uniform one, at the rank of the design. -/
theorem failures_name_ranks {σ K : Type} [Add K] [Sub K] [Mul K] [Div K] [Scalar K] [Roots K]
    [BetaTails K] (o : Oracle σ K) :
    (∀ (block : Grid K) (size : ℕ) (rest : List ℕ), block.shape = size :: rest →
      ∀ (rank : ℤ) (s : σ) (e : Error), (queryDistances o block rank s).1 = .error e →
        o.NamesRank block rank s e) ∧
    ∀ (host : Host K) (b : Backend σ K) (d : Design K) (s : σ) (e : Error),
      b.oracle d.points = .ok o → d.k + 1 ≤ d.points.size → (b.solve host d s).1 = .error e →
      e.IsOracleFailure →
        (∃ rows t, (∀ row ∈ rows, row ∈ d.points.points) ∧
          (queryDistances o (.ofRows d.points.dim rows) (d.k + 1) t).1 = .error e ∧
          o.NamesRank (.ofRows d.points.dim rows) (d.k + 1) t e) ∨
        ∃ rows t, (∀ row ∈ rows, row.length = d.points.dim) ∧
          (queryDistances o (.ofRows d.points.dim rows) d.k t).1 = .error e ∧
          o.NamesRank (.ofRows d.points.dim rows) d.k t e := by
  constructor
  · intro block size rest shape rank s e failed
    exact namesRank_of_queryDistances shape failed
  · intro host b d s e ready enough failed failure
    cases failsSample_of_solve ready enough failed failure with
    | real rows t chosen failed =>
        exact .inl ⟨rows, t, chosen, failed, namesRank_of_queryDistances rfl failed⟩
    | uniform rows t lengths failed =>
        exact .inr ⟨rows, t, lengths, failed, namesRank_of_queryDistances rfl failed⟩

/-- An oracle that declares every query a failure without saying at which rank. -/
def offlineOracle (capabilities : Option (List (String × Value))) :
    Oracle (Transcript Float) Float :=
  .scripted [.failure (.oracle (.reported "index is offline") none none)] ⟨none, capabilities⟩

/-- Asked for one query after the other, it fails at the first of them and at the rank that was
asked for, also in a run. -/
theorem failures_name_ranks_offline :
    (Grid.ofRows 1 [[0], [1]] : Grid Float).shape = [2, 1] ∧
      (offlineOracle none).NamesRank (.ofRows 1 [[0], [1]]) 2 {}
        (.oracle (.reported "index is offline") (some 2) (some 0)) ∧
      ∃ e, ((Backend.injected (offlineOracle none)).solve stillHost planeRun {}).1 = .error e ∧
        e.rank? = some 2 ∧
        ((∃ rows t, (∀ row ∈ rows, row ∈ planePoints.points) ∧
            (queryDistances (offlineOracle none) (.ofRows 2 rows) 2 t).1 = .error e ∧
            (offlineOracle none).NamesRank (.ofRows 2 rows) 2 t e) ∨
          ∃ rows t, (∀ row ∈ rows, row.length = 2) ∧
            (queryDistances (offlineOracle none) (.ofRows 2 rows) 1 t).1 = .error e ∧
            (offlineOracle none).NamesRank (.ofRows 2 rows) 1 t e) := by
  have name_ranks := failures_name_ranks (offlineOracle none)
  refine ⟨rfl, name_ranks.1 (.ofRows 1 [[0], [1]]) 2 [1] rfl 2 {} _ rfl, _, rfl, rfl, ?_⟩
  exact name_ranks.2 stillHost (.injected (offlineOracle none)) planeRun {} _ rfl (by decide) rfl
    rfl

/-- Asked for a whole block, it fails without a rank, and so does a run. The tree does it as well,
if the points of a block have another number of coordinates than its own. -/
theorem offline_block_names_no_rank :
    (queryDistances (offlineOracle (some [("batch_query", .bool true)])) (.ofRows 1 [[0], [1]]) 2
        {}).1 = .error (.oracle (.reported "index is offline") none none) ∧
      ((Backend.injected (offlineOracle (some [("batch_query", .bool true)]))).solve stillHost
        planeRun {}).1 = .error (.oracle (.reported "index is offline") none none) ∧
      (queryDistances (Oracle.tree planePoints 2 : Oracle Unit Float) (.ofRows 1 [[0], [1]]) 2
        ()).1 = .error (.oracle (.queryShape [2, 1] 2) none none) :=
  ⟨rfl, rfl, rfl⟩

end PointPattern
