/-
# What becomes of the answers of an oracle

A block of queries is put to the oracle in one call, or query after query from the first on, each
of them once. The answers are passed on as they were given, each in the place of its query, if all
queries are answered and all answers are distances. Otherwise the block fails, and the failure is
one of the oracle: it names the query at which the oracle failed, after which nothing more is asked,
or the first answer that is no distance.
-/

import PointPattern.Oracle.Double
import PointPattern.Proofs.Queries

namespace PointPattern

/-- The position of the query that a failure complains of. -/
def Error.position? : Error → Option Int
  | .oracle _ _ position => position
  | _ => none

section Queries

variable {σ K : Type}

/-! ## Queries one after the other -/

/-- Queries that are put one after the other and all answered: from one state of the oracle they
lead to another, by way of the answers. -/
inductive AnswersEach (ask : Grid K → Step σ K) : List (Grid K) → σ → List K → σ → Prop
  | nil (s : σ) : AnswersEach ask [] s [] s
  | cons {point : Grid K} {rest : List (Grid K)} {s t u : σ} {x : K} {xs : List K}
      (answered : ask point s = (.ok x, t)) (others : AnswersEach ask rest t xs u) :
      AnswersEach ask (point :: rest) s (x :: xs) u

variable {ask : Grid K → Step σ K} {points before after : List (Grid K)} {point : Grid K}
variable {s t u : σ} {xs : List K} {e : Error} {rank : ℤ}

theorem AnswersEach.length_eq (answers : AnswersEach ask points s xs t) :
    xs.length = points.length := by
  induction answers with
  | nil s => rfl
  | cons answered others ih => exact congrArg (· + 1) ih

/-- Queries are all answered, or there is a first one that is not. -/
theorem answersEach_or_fails (ask : Grid K → Step σ K) (points : List (Grid K)) (s : σ) :
    (∃ xs u, AnswersEach ask points s xs u) ∨
      ∃ before point after xs t e u, points = before ++ point :: after ∧
        AnswersEach ask before s xs t ∧ ask point t = (.error e, u) := by
  induction points generalizing s with
  | nil => exact .inl ⟨[], s, .nil s⟩
  | cons point rest ih =>
      rcases asked : ask point s with ⟨e | x, t⟩
      · exact .inr ⟨[], point, rest, [], s, e, t, rfl, .nil s, asked⟩
      · rcases ih t with
          ⟨xs, u, others⟩ | ⟨before, failing, after, xs, t', e, u, split, others, failed⟩
        · exact .inl ⟨x :: xs, u, .cons asked others⟩
        · exact .inr ⟨point :: before, failing, after, x :: xs, t', e, u, congrArg _ split,
            .cons asked others, failed⟩

theorem askEach_of_answers (answers : AnswersEach ask points s xs u) (rank : ℤ) (position : ℕ) :
    askEach ask rank position points s = (.ok xs, u) := by
  induction answers generalizing position with
  | nil s => rfl
  | cons answered others ih => simp only [askEach, answered, ih]

/-- The first query that is not answered ends the queries. -/
theorem askEach_of_fails (answers : AnswersEach ask before s xs t)
    (fails : ask point t = (.error e, u)) (after : List (Grid K)) (rank : ℤ) (position : ℕ) :
    askEach ask rank position (before ++ point :: after) s =
      (.error (queryFailure (position + before.length) rank e), u) := by
  induction answers generalizing position with
  | nil s =>
      simp only [List.nil_append, askEach, fails]
      rfl
  | @cons first rest s t' u' x xs answered others ih =>
      have position_eq : position + 1 + rest.length = position + (first :: rest).length := by
        rw [List.length_cons]
        omega
      simp only [List.cons_append, askEach, answered, ih fails, position_eq]

/-! ## Failures of single queries -/

/-- A failure of a query names the query, unless the oracle names another one. -/
theorem position?_queryFailure (position : ℕ) (rank : ℤ) (e : Error) :
    (queryFailure position rank e).position? = some (e.position?.getD position) := by
  cases e with
  | oracle reason failedRank failedPosition => cases failedPosition <;> rfl
  | _ => rfl

/-- A failure of another kind is kept as the origin. -/
theorem origin?_queryFailure (other : ¬e.IsOracleFailure) (position : ℕ) (rank : ℤ) :
    (queryFailure position rank e).origin? = some e := by
  cases e with
  | oracle reason failedRank failedPosition => exact absurd rfl other
  | _ => rfl

/-! ## Distances -/

variable [Scalar K]

theorem checkDistances_of_all (distances : ∀ x ∈ xs, isDistance x = true) (rank : ℤ) :
    checkDistances rank xs = .ok xs := by
  have never : ∀ e : Error, ¬(e.IsOracleFailure ∧ ¬∀ x ∈ xs, isDistance x = true) :=
    fun _ failure => failure.2 distances
  obtain ⟨_, checked, rfl, -⟩ := (checkDistances_ends rank xs).exists_ok never
  exact checked

/-- The first number that is no distance is refused. -/
theorem checkDistances_of_first {i : ℕ} (inside : i < xs.length)
    (refused : isDistance xs[i] = false) (first : ∀ j (before : j < i), isDistance xs[j] = true)
    (rank : ℤ) :
    ∃ written, checkDistances rank xs =
      .error (.oracle (.invalidDistance written i rank) (some rank) (some i)) := by
  have found : xs.findIdx? (fun x => !isDistance x) = some i := by
    refine List.findIdx?_eq_some_iff_getElem.2 ⟨inside, by rw [refused]; rfl, fun j before => ?_⟩
    rw [first j before]
    exact nofun
  rw [checkDistances, found]
  exact ⟨_, rfl⟩

/-! ## Blocks -/

/-- All queries of a block are answered: in one call, or one after the other. -/
def Oracle.AnswersAll (o : Oracle σ K) (points : Grid K) (size : ℕ) (rank : ℤ) (s : σ)
    (xs : List K) (u : σ) : Prop :=
  if o.supports .batchQuery then o.distances points rank s = (.ok ⟨[size], xs⟩, u)
  else AnswersEach (o.distance · rank) points.subgrids s xs u

variable {o : Oracle σ K} {block : Grid K} {size : ℕ} {rest : List ℕ}

omit [Scalar K] in
theorem Oracle.answersAll_iff_each (single : o.supports .batchQuery = false) :
    o.AnswersAll block size rank s xs u ↔
      AnswersEach (o.distance · rank) block.subgrids s xs u := by
  rw [Oracle.AnswersAll, single]
  exact Iff.rfl

omit [Scalar K] in
theorem Oracle.answersAll_iff_block (batch : o.supports .batchQuery = true) :
    o.AnswersAll block size rank s xs u ↔ o.distances block rank s = (.ok ⟨[size], xs⟩, u) := by
  rw [Oracle.AnswersAll, batch]
  exact Iff.rfl

theorem queryDistances_eq (o : Oracle σ K) (shape : block.shape = size :: rest) (rank : ℤ) (s : σ) :
    queryDistances o block rank s =
      let asked := if o.supports .batchQuery then askBlock (o.distances · rank) rank block size s
        else askEach (o.distance · rank) rank 0 block.subgrids s
      (asked.1.bind (checkDistances rank), asked.2) := by
  rw [queryDistances, shape]
  dsimp only
  split
  · exact bind_ofExcept _ _ s
  · exact bind_ofExcept _ _ s

theorem queryDistances_of_answersAll (shape : block.shape = size :: rest)
    (answers : o.AnswersAll block size rank s xs u) :
    queryDistances o block rank s = (checkDistances rank xs, u) := by
  rw [queryDistances_eq o shape]
  rw [Oracle.AnswersAll] at answers
  split at answers
  · next batch =>
      have asked : askBlock (o.distances · rank) rank block size s = (.ok xs, u) := by
        simp only [askBlock, answers, if_true]
      rw [if_pos batch, asked]
      rfl
  · next single =>
      rw [if_neg single, askEach_of_answers answers]
      rfl

theorem queryDistances_of_fails (single : o.supports .batchQuery = false)
    (shape : block.shape = size :: rest) (split : block.subgrids = before ++ point :: after)
    (answers : AnswersEach (o.distance · rank) before s xs t)
    (fails : o.distance point rank t = (.error e, u)) :
    queryDistances o block rank s = (.error (queryFailure before.length rank e), u) := by
  have asked := askEach_of_fails answers fails after rank 0
  rw [Nat.zero_add, ← split] at asked
  rw [queryDistances_eq o shape, if_neg (by simp [single]), asked]
  rfl

theorem queryDistances_of_block_fails (batch : o.supports .batchQuery = true)
    (shape : block.shape = size :: rest) (fails : o.distances block rank s = (.error e, u)) :
    queryDistances o block rank s = (.error (blockFailure size rank e), u) := by
  have asked : askBlock (o.distances · rank) rank block size s =
      (.error (blockFailure size rank e), u) := by
    simp only [askBlock, fails]
  rw [queryDistances_eq o shape, if_pos batch, asked]
  rfl

/-- An answer with another shape than one entry for each query is refused. -/
theorem queryDistances_of_shape_ne (batch : o.supports .batchQuery = true)
    (shape : block.shape = size :: rest) {answers : Grid K}
    (answered : o.distances block rank s = (.ok answers, u)) (other : answers.shape ≠ [size]) :
    queryDistances o block rank s =
      (.error (.oracle (.answerShape answers.shape size) (some rank) none), u) := by
  have asked : askBlock (o.distances · rank) rank block size s =
      (.error (.oracle (.answerShape answers.shape size) (some rank) none), u) := by
    simp only [askBlock, answered, if_neg other]
  rw [queryDistances_eq o shape, if_pos batch, asked]
  rfl

/-- Either all queries are answered, or the oracle fails. -/
theorem answersAll_or_fails (o : Oracle σ K) (shape : block.shape = size :: rest) (rank : ℤ)
    (s : σ) :
    (∃ xs u, o.AnswersAll block size rank s xs u) ∨
      ∃ e, e.IsOracleFailure ∧ (queryDistances o block rank s).1 = .error e := by
  cases path : o.supports .batchQuery with
  | true =>
      simp only [Oracle.answersAll_iff_block path]
      rcases asked : o.distances block rank s with ⟨e | ⟨answers, xs⟩, u⟩
      · refine .inr ⟨_, isOracleFailure_blockFailure size rank e, ?_⟩
        rw [queryDistances_of_block_fails path shape asked]
      · by_cases same : answers = [size]
        · exact .inl ⟨xs, u, same ▸ rfl⟩
        · refine .inr ⟨.oracle (.answerShape answers size) (some rank) none, rfl, ?_⟩
          rw [queryDistances_of_shape_ne path shape asked same]
  | false =>
      simp only [Oracle.answersAll_iff_each path]
      rcases answersEach_or_fails (o.distance · rank) block.subgrids s with
        answered | ⟨before, point, after, xs, t, e, u, split, answers, fails⟩
      · exact .inl answered
      · refine .inr ⟨_, isOracleFailure_queryFailure before.length rank e, ?_⟩
        rw [queryDistances_of_fails path shape split answers fails]

/-- Distances are given if all queries are answered with distances, and only then, and they are
the answers. -/
theorem queryDistances_eq_ok_iff (shape : block.shape = size :: rest) :
    queryDistances o block rank s = (.ok xs, u) ↔
      o.AnswersAll block size rank s xs u ∧ ∀ x ∈ xs, isDistance x = true := by
  constructor
  · intro given
    rcases answersAll_or_fails o shape rank s with ⟨ys, t, answers⟩ | ⟨e, -, failed⟩
    · rw [queryDistances_of_answersAll shape answers, Prod.mk.injEq] at given
      obtain ⟨checked, rfl⟩ := given
      obtain ⟨rfl, distances⟩ := (checkDistances_ends rank ys).result checked
      exact ⟨answers, distances⟩
    · rw [given] at failed
      cases failed
  · rintro ⟨answers, distances⟩
    rw [queryDistances_of_answersAll shape answers, checkDistances_of_all distances]

/-- Every failure of a block is one of the oracle. -/
theorem isOracleFailure_of_queryDistances (shape : block.shape = size :: rest)
    (failed : (queryDistances o block rank s).1 = .error e) : e.IsOracleFailure := by
  rcases answersAll_or_fails o shape rank s with ⟨xs, t, answers⟩ | ⟨e', failure, failed'⟩
  · rw [queryDistances_of_answersAll shape answers] at failed
    exact ((checkDistances_ends rank xs).failure failed).1
  · rw [failed] at failed'
    cases failed'
    exact failure

/-! ## The queries that are put -/

/-- An oracle that passes every query on and keeps a list of the queries, in their order. -/
def Oracle.watched (o : Oracle σ K) : Oracle (σ × List (Query K)) K where
  label := o.label
  ownName := o.ownName
  answers := o.answers
  advertises := o.advertises
  size := o.size
  device := o.device
  distance point rank := fun (s, calls) =>
    let (result, t) := o.distance point rank s
    (result, (t, calls ++ [.single point rank]))
  distances points rank := fun (s, calls) =>
    let (result, t) := o.distances points rank s
    (result, (t, calls ++ [.block points rank]))

/-- The queries that an oracle is asked for a block of points, in their order. -/
def Oracle.calls (o : Oracle σ K) (block : Grid K) (rank : ℤ) (s : σ) : List (Query K) :=
  (queryDistances o.watched block rank (s, [])).2.2

omit [Scalar K] in
theorem AnswersEach.watched (answers : AnswersEach (o.distance · rank) points s xs u)
    (calls : List (Query K)) :
    AnswersEach (o.watched.distance · rank) points (s, calls) xs
      (u, calls ++ points.map (.single · rank)) := by
  induction answers generalizing calls with
  | nil s =>
      rw [List.map_nil, List.append_nil]
      exact .nil _
  | @cons point rest s t u x xs answered others ih =>
      have noted : o.watched.distance point rank (s, calls) =
          (.ok x, (t, calls ++ [.single point rank])) := by
        simp only [Oracle.watched, answered]
      have later := ih (calls ++ [.single point rank])
      rw [List.append_assoc, List.singleton_append] at later
      exact .cons noted later

/-- If all queries are answered one after the other, all of them are put, each once and in their
order. -/
theorem Oracle.calls_of_answers (single : o.supports .batchQuery = false)
    (shape : block.shape = size :: rest)
    (answers : AnswersEach (o.distance · rank) block.subgrids s xs u) :
    o.calls block rank s = block.subgrids.map (.single · rank) := by
  have single_watched : o.watched.supports .batchQuery = false := single
  rw [Oracle.calls, queryDistances_of_answersAll shape
    ((Oracle.answersAll_iff_each single_watched).2 (answers.watched [])), List.nil_append]

/-- Nothing is asked after the first query that is not answered. -/
theorem Oracle.calls_of_fails (single : o.supports .batchQuery = false)
    (shape : block.shape = size :: rest) (split : block.subgrids = before ++ point :: after)
    (answers : AnswersEach (o.distance · rank) before s xs t)
    (fails : o.distance point rank t = (.error e, u)) :
    o.calls block rank s = (before ++ [point]).map (.single · rank) := by
  have single_watched : o.watched.supports .batchQuery = false := single
  have noted : o.watched.distance point rank (t, [] ++ before.map (.single · rank)) =
      (.error e, (u, before.map (.single · rank) ++ [.single point rank])) := by
    simp only [Oracle.watched, fails, List.nil_append]
  rw [Oracle.calls,
    queryDistances_of_fails single_watched shape split (answers.watched []) noted, List.map_append]
  rfl

theorem Oracle.calls_of_batch (batch : o.supports .batchQuery = true)
    (shape : block.shape = size :: rest) (rank : ℤ) (s : σ) :
    o.calls block rank s = [.block block rank] := by
  have asked : (askBlock (o.watched.distances · rank) rank block size (s, [])).2.2 =
      [.block block rank] := by
    simp only [askBlock, Oracle.watched]
    rcases o.distances block rank s with ⟨e | answers, t⟩
    · rfl
    · dsimp only
      split <;> rfl
  rw [Oracle.calls, queryDistances_eq o.watched shape,
    if_pos (show o.watched.supports .batchQuery = true from batch)]
  exact asked

end Queries

/-! ## Answers of any kind -/

/-- An oracle that replies with values of any kind, which are read as doubles. -/
def Oracle.ofReplies {σ : Type} (label : String) (advertises : Option (String → Bool))
    (single block : Grid Float → ℤ → Step σ Value) : Oracle σ Float where
  label
  advertises
  distance point rank := do Step.ofExcept (← single point rank).toReal
  distances points rank := do Step.ofExcept (← block points rank).toBlock

/-- Such an oracle does not answer a query if its own code fails or if it replies with something
that is no real number. -/
theorem Oracle.distance_ofReplies_eq_error_iff {σ : Type} {label : String}
    {advertises : Option (String → Bool)} {single block : Grid Float → ℤ → Step σ Value}
    {point : Grid Float} {rank : ℤ} {s u : σ} {e : Error} :
    (Oracle.ofReplies label advertises single block).distance point rank s = (.error e, u) ↔
      single point rank s = (.error e, u) ∨
        ∃ v, single point rank s = (.ok v, u) ∧ v.toReal = .error e := by
  have read : (Oracle.ofReplies label advertises single block).distance point rank s =
      ((single point rank s).1.bind Value.toReal, (single point rank s).2) := bind_ofExcept _ _ s
  rw [read]
  rcases single point rank s with ⟨e' | v, t⟩
  · constructor
    · intro failed
      cases failed
      exact .inl rfl
    · rintro (raised | ⟨_, replied, _⟩)
      · cases raised
        rfl
      · cases replied
  · constructor
    · intro failed
      obtain ⟨unread, rfl⟩ := Prod.mk.inj failed
      exact .inr ⟨v, rfl, unread⟩
    · rintro (raised | ⟨_, replied, unread⟩)
      · cases raised
      · cases replied
        exact congrArg (·, u) unread

/-! ## Distances of a block -/

/-- No answer is skipped, moved or replaced. Take any oracle, any block of points, any rank and any
state of the oracle. The block gives distances if all queries are answered with distances, and only
then, and each stands in the place of its query; otherwise it fails as the oracle does. If all
queries are answered, but not with distances, the failure names the first answer that is none.
Queries that are put one after the other are put in their order, each once, until one is not
answered: then the failure names this query unless the oracle names another one, and it keeps a
failure of another kind as its origin. A whole block is put once, and its answer is refused if its
shape is not that of the queries. An oracle that replies with values of any kind does not answer a
query if its own code fails or if the value is no real number. -/
theorem queryDistances_passes_on {σ : Type} (o : Oracle σ Float) {block : Grid Float} {size : ℕ}
    {rest : List ℕ} (shape : block.shape = size :: rest) (rank : ℤ) (s : σ) :
    (∀ xs u, queryDistances o block rank s = (.ok xs, u) ↔
      o.AnswersAll block size rank s xs u ∧ ∀ x ∈ xs, isDistance x = true) ∧
    (∀ e, (queryDistances o block rank s).1 = .error e → e.IsOracleFailure) ∧
    (∀ xs u, o.AnswersAll block size rank s xs u → ∀ i, ∀ inside : i < xs.length,
      isDistance xs[i] = false → (∀ j, ∀ before : j < i, isDistance xs[j] = true) →
      ∃ written, queryDistances o block rank s =
        (.error (.oracle (.invalidDistance written i rank) (some rank) (some i)), u)) ∧
    (o.supports .batchQuery = false →
      (∀ xs u, AnswersEach (o.distance · rank) block.subgrids s xs u →
        xs.length = size ∧ o.calls block rank s = block.subgrids.map (.single · rank)) ∧
      ∀ before point after xs t e u, block.subgrids = before ++ point :: after →
        AnswersEach (o.distance · rank) before s xs t → o.distance point rank t = (.error e, u) →
        let failure := queryFailure before.length rank e
        queryDistances o block rank s = (.error failure, u) ∧
          o.calls block rank s = (before ++ [point]).map (.single · rank) ∧
          failure.position? = some (e.position?.getD before.length) ∧
          (¬e.IsOracleFailure → failure.origin? = some e)) ∧
    (o.supports .batchQuery = true →
      o.calls block rank s = [.block block rank] ∧
      (∀ e u, o.distances block rank s = (.error e, u) →
        queryDistances o block rank s = (.error (blockFailure size rank e), u)) ∧
      ∀ answers u, o.distances block rank s = (.ok answers, u) → answers.shape ≠ [size] →
        queryDistances o block rank s =
          (.error (.oracle (.answerShape answers.shape size) (some rank) none), u)) ∧
    ∀ label advertises single blocks point t e u,
      (Oracle.ofReplies label advertises single blocks : Oracle σ Float).distance point rank t =
          (.error e, u) ↔
        single point rank t = (.error e, u) ∨
          ∃ v, single point rank t = (.ok v, u) ∧ v.toReal = .error e := by
  refine ⟨fun xs u => queryDistances_eq_ok_iff shape,
    fun e => isOracleFailure_of_queryDistances shape, ?_, ?_, ?_, ?_⟩
  · intro xs u answers i inside refused first
    obtain ⟨written, checked⟩ := checkDistances_of_first inside refused first rank
    exact ⟨written, by rw [queryDistances_of_answersAll shape answers, checked]⟩
  · intro single
    refine ⟨fun xs u answers => ⟨?_, Oracle.calls_of_answers single shape answers⟩, ?_⟩
    · rw [answers.length_eq, Grid.subgrids, shape, List.length_map, Grid.length_cut]
    · intro before point after xs t e u split answers fails
      exact ⟨queryDistances_of_fails single shape split answers fails,
        Oracle.calls_of_fails single shape split answers fails,
        position?_queryFailure before.length rank e,
        fun other => origin?_queryFailure other before.length rank⟩
  · intro batch
    exact ⟨Oracle.calls_of_batch batch shape rank s,
      fun e u fails => queryDistances_of_block_fails batch shape fails,
      fun answers u answered other => queryDistances_of_shape_ne batch shape answered other⟩
  · intro label advertises single blocks point t e u
    exact Oracle.distance_ofReplies_eq_error_iff

/-- An oracle that answers one query with a distance, the next one with nothing, and so on. -/
def forgetfulOracle : Oracle (Transcript Float) Float :=
  .scripted [.value (.real 2), .value .null] ⟨none, none⟩

/-- Of three queries the second is not answered, and the third is not put. -/
theorem queryDistances_passes_on_forgetfulOracle :
    (Grid.ofRows 1 [[0], [1], [3]] : Grid Float).shape = [3, 1] ∧
      (queryDistances forgetfulOracle (.ofRows 1 [[0], [1], [3]]) 1 {}).1 =
        .error (queryFailure 1 1 (.number (.notReal "NoneType"))) ∧
      forgetfulOracle.calls (.ofRows 1 [[0], [1], [3]]) 1 {} =
        [.single ⟨[1], [0]⟩ 1, .single ⟨[1], [1]⟩ 1] := by
  have passes_on := queryDistances_passes_on forgetfulOracle
    (rfl : (Grid.ofRows 1 [[0], [1], [3]] : Grid Float).shape = [3, 1]) 1 {}
  have one_by_one := (passes_on.2.2.2.1 rfl).2 [⟨[1], [0]⟩] ⟨[1], [1]⟩ [⟨[1], [3]⟩] [2] _ _ _ rfl
    (.cons rfl (.nil _)) rfl
  exact ⟨rfl, congrArg Prod.fst one_by_one.1, one_by_one.2.1⟩

end PointPattern
