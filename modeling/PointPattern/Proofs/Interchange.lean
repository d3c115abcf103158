/-
# Oracles that compute the same distances

An oracle may find its answers one by one or in blocks, and it may keep whatever state it
likes. If the answer to every row is a function of the row and the rank, a sample comes to the
checked values of that function, so that two oracles for one function cannot be told apart by a
repetition. All rows that a run asks about have as many coordinates as the data, and all ranks
are ranks of the data; nothing is assumed of other queries. Without rounding two such runs give
the same numbers or fail in the same way, on whatever number of workers each is carried out.
-/

import PointPattern.Proofs.Textbook

namespace PointPattern

open PointPattern.Random

section Computes

variable {σ τ K : Type}

/-- An oracle whose answers are the values of a function of the row and the rank, for rows with
so many coordinates and ranks of so many points. It need answer only the kind of query that it
is asked. -/
structure Oracle.Computes (o : Oracle σ K) (f : List K → ℤ → K) (size dim : ℕ) : Prop where
  single : o.supports .batchQuery = false → ∀ (row : List K) (rank : ℤ) (s : σ),
    row.length = dim → 1 ≤ rank → rank ≤ size →
      (o.distance (.ofPoint row) rank s).1 = .ok (f row rank)
  block : o.supports .batchQuery = true → ∀ (rows : List (List K)) (rank : ℤ) (s : σ),
    (∀ row ∈ rows, row.length = dim) → 1 ≤ rank → rank ≤ size →
      (o.distances (.ofRows dim rows) rank s).1 = .ok (.ofPoint (rows.map (f · rank)))

/-! ## Samples -/

/-- Rows that are laid out in a block are cut out again. -/
theorem cut_flatten {dim : ℕ} {rows : List (List K)} (lengths : ∀ row ∈ rows, row.length = dim) :
    Grid.cut rows.length dim rows.flatten = rows := by
  induction rows with
  | nil => rfl
  | cons row rest ih =>
      have row_length := lengths row List.mem_cons_self
      rw [List.length_cons, Grid.cut, List.flatten_cons, List.take_left' row_length,
        List.drop_left' row_length, ih fun other mem => lengths other (List.mem_cons_of_mem row mem)]

theorem subgrids_ofRows {dim : ℕ} {rows : List (List K)}
    (lengths : ∀ row ∈ rows, row.length = dim) :
    (Grid.ofRows dim rows).subgrids = rows.map Grid.ofPoint := by
  have one_axis : Grid.sizeOf [dim] = dim := Nat.one_mul dim
  rw [Grid.ofRows, Grid.subgrids]
  dsimp only
  rw [one_axis, cut_flatten lengths]
  apply List.map_congr_left
  intro row mem
  rw [Grid.ofPoint, lengths row mem]

/-- Queries put one after the other give one answer after the other. -/
theorem askEach_of_ok {ask : Grid K → Step σ K} {answer : List K → K} {rows : List (List K)}
    (each : ∀ row ∈ rows, ∀ s, (ask (.ofPoint row) s).1 = .ok (answer row)) (rank : ℤ)
    (position : ℕ) (s : σ) :
    (askEach ask rank position (rows.map Grid.ofPoint) s).1 = .ok (rows.map answer) := by
  induction rows generalizing position s with
  | nil => rfl
  | cons row rest ih =>
      have first := each row List.mem_cons_self s
      rcases asked : ask (.ofPoint row) s with ⟨result, t⟩
      rw [asked] at first
      dsimp only at first
      have others := ih (fun other mem => each other (List.mem_cons_of_mem row mem)) (position + 1) t
      rcases asked_others : askEach ask rank (position + 1) (rest.map Grid.ofPoint) t with
        ⟨results, u⟩
      rw [asked_others] at others
      dsimp only at others
      simp only [List.map_cons, askEach, asked, first, asked_others, others]

variable [Scalar K] {o : Oracle σ K} {o' : Oracle τ K} {f : List K → ℤ → K} {size dim : ℕ}

/-- A sample comes to the checked values of the function, whichever way it is asked. -/
theorem Oracle.Computes.queryDistances (computes : o.Computes f size dim) {rank : ℤ}
    (rank_pos : 1 ≤ rank) (rank_le : rank ≤ size) {rows : List (List K)}
    (lengths : ∀ row ∈ rows, row.length = dim) (s : σ) :
    (PointPattern.queryDistances o (.ofRows dim rows) rank s).1 =
      checkDistances rank (rows.map (f · rank)) := by
  rw [PointPattern.queryDistances, Grid.ofRows]
  dsimp only
  rw [← Grid.ofRows]
  split
  · next batch =>
      have answered := computes.block batch rows rank s lengths rank_pos rank_le
      have shaped : (o.distances (.ofRows dim rows) rank s).1 =
          .ok ⟨[rows.length], rows.map (f · rank)⟩ := by
        rw [answered, Grid.ofPoint, List.length_map]
      rw [bind_ofExcept_fst, askBlock_of_ok (o.distances · rank) shaped]
      rfl
  · next single =>
      have each : ∀ row ∈ rows, ∀ t, (o.distance (.ofPoint row) rank t).1 = .ok (f row rank) :=
        fun row mem t =>
          computes.single (by simpa using single) row rank t (lengths row mem) rank_pos rank_le
      rw [bind_ofExcept_fst, subgrids_ofRows lengths, askEach_of_ok each]
      rfl

/-! ## Repetitions -/

variable {data : PointSet K} {box : Box K} {k : ℕ}

section Repetitions

variable [Div K]

theorem sampleReal_alike_of_computes (computes : o.Computes f data.size data.dim)
    (computes' : o'.Computes f data.size data.dim) (rank_le : k + 1 ≤ data.size) (size : ℤ) :
    (sampleReal o (streamSource K) data size k).Alike
      (sampleReal o' (streamSource K) data size k) := by
  refine .bind (.random _) fun numbers => ?_
  refine .bind_of (fun chosen => ∀ row ∈ chosen, row.length = data.dim) (.query fun _ _ => rfl)
    ?_ fun chosen lengths => ?_
  · intro from_state chosen found row mem
    exact data.length_eq row (by simpa using mem_of_mapM_rowAt found row mem)
  · refine .bind (.query fun s s' => ?_) fun xs => .query fun _ _ => rfl
    rw [computes.queryDistances (by omega) (by omega) lengths,
      computes'.queryDistances (by omega) (by omega) lengths]

variable [Add K] [Mul K]

theorem sampleUniform_alike_of_computes (computes : o.Computes f data.size data.dim)
    (computes' : o'.Computes f data.size data.dim) (spans : box.Spans data.dim)
    (rank_pos : 1 ≤ k) (rank_le : k ≤ data.size) (size : ℕ) :
    (sampleUniform o (streamSource K) box size k).Alike
      (sampleUniform o' (streamSource K) box size k) := by
  refine .bind_of (fun points => ∃ rows, (∀ row ∈ rows, row.length = data.dim) ∧
    points = .ofRows data.dim rows) (.random _) ?_ ?_
  · intro from_state points drawn
    obtain ⟨rows, lengths, sampled⟩ := sample_ok spans size from_state.2
    exact ⟨rows, lengths, Except.ok.inj (Eq.trans drawn.symm sampled)⟩
  · rintro _ ⟨rows, lengths, rfl⟩
    refine .bind (.query fun s s' => ?_) fun xs => .query fun _ _ => rfl
    rw [computes.queryDistances (by omega) (by omega) lengths,
      computes'.queryDistances (by omega) (by omega) lengths]

/-- A repetition ends in the same way on two oracles for one function, in whatever states. -/
theorem repetition_alike_of_computes (computes : o.Computes f data.size data.dim)
    (computes' : o'.Computes f data.size data.dim) (spans : box.Spans data.dim)
    (rank_pos : 1 ≤ k) (rank_le : k + 1 ≤ data.size) (stream : ℕ → Stream) (size j : ℕ) (s : σ)
    (s' : τ) :
    (repetition o (streamSource K) stream data box size k j s).1 =
      (repetition o' (streamSource K) stream data box size k j s').1 := by
  have alike : (runTrial o (streamSource K) data box size k).Alike
      (runTrial o' (streamSource K) data box size k) :=
    .bind (sampleReal_alike_of_computes computes computes' rank_le size) fun _ =>
      .bind (sampleUniform_alike_of_computes computes computes' spans rank_pos (by omega) size)
        fun _ => .pure _
  exact (alike s s' (stream j)).1

end Repetitions

end Computes

/-! ## All repetitions -/

/-- Two runs of all repetitions that cannot be told apart: they fail in the same way, or they
have the same numbers in the same places and tallies that are related as given. -/
inductive SameSummary {K : Type} (alike : Tally K → Tally K → Prop) :
    Except Error (Summary K) → Except Error (Summary K) → Prop
  | failed (e : Error) : SameSummary alike (.error e) (.error e)
  | finished (trials : List (Trial K)) {tally tally' : Tally K} (same : alike tally tally') :
    SameSummary alike (.ok ⟨trials, tally⟩) (.ok ⟨trials, tally'⟩)

section Summaries

variable {σ τ K : Type} [Add K] [Sub K] [Mul K] [Div K] [Scalar K]

/-- Repetitions that end in the same ways make the same summary on any two numbers of workers,
as far as merging tallies is immaterial. -/
theorem sameSummary_of_endsAs {run : ℕ → Step σ (Trial K)} {run' : ℕ → Step τ (Trial K)}
    {outcome : ℕ → Except Error (Trial K)} (ends : EndsAs run outcome) (ends' : EndsAs run' outcome)
    {alike : Tally K → Tally K → Prop}
    (merging : ∀ lists lists' : List (List (Trial K)), lists.flatten = lists'.flatten →
      alike (Tally.empty.mergeAll lists) (Tally.empty.mergeAll lists'))
    {count pieces pieces' : ℕ} (some_count : 0 < count) (some_pieces : 0 < pieces)
    (some_pieces' : 0 < pieces') (s : σ) (s' : τ) :
    SameSummary alike (runTrials run count pieces s).1 (runTrials run' count pieces' s').1 := by
  have settled := Progress.settled_turnsInOrder ends count pieces s
  have settled' := Progress.settled_turnsInOrder ends' count pieces' s'
  show SameSummary alike ((Progress.start count pieces s).runTurns run _).collect
    ((Progress.start count pieces' s').runTurns run' _).collect
  cases found : (List.range count).findSome? (failureOf outcome) with
  | some e =>
      rw [Progress.collect_of_failure ends some_pieces found settled,
        Progress.collect_of_failure ends' some_pieces' found settled']
      exact .failed e
  | none =>
      obtain ⟨trials, complete⟩ := exists_trials some_count found
      rw [Progress.collect_of_settled ends some_pieces complete settled,
        Progress.collect_of_settled ends' some_pieces' complete settled']
      apply SameSummary.finished
      apply merging
      rw [← List.map_flatten, ← List.map_flatten, flatten_chunks some_pieces,
        flatten_chunks some_pieces']

variable {b : Backend σ K} {b' : Backend τ K} {d : Design K} {o : Oracle σ K} {o' : Oracle τ K}
variable {f : List K → ℤ → K}

/-- Two oracles for one function give the same summary from the same entropy. -/
theorem sampled_same {alike : Tally K → Tally K → Prop}
    (merging : ∀ lists lists' : List (List (Trial K)), lists.flatten = lists'.flatten →
      alike (Tally.empty.mergeAll lists) (Tally.empty.mergeAll lists'))
    {host host' : Host K}
    (entropy : d.seed.getD host.freshEntropy = d.seed.getD host'.freshEntropy)
    (enough : d.k + 1 ≤ d.points.size) (computes : o.Computes f d.points.size d.points.dim)
    (computes' : o'.Computes f d.points.size d.points.dim) (s : σ) (s' : τ) :
    SameSummary alike (b.sampled host d o s) (b'.sampled host' d o' s') := by
  obtain ⟨box, boxed, spans⟩ := d.box_ok
  rw [Backend.sampled_eq host s boxed, Backend.sampled_eq host' s' boxed, ← entropy]
  let stream := Backend.streamOf (d.seed.getD host.freshEntropy)
  let outcome (j : ℕ) :=
    (repetition o (streamSource K) stream d.points box d.sampleSize d.k j s).1
  have ends : EndsAs (repetition o (streamSource K) stream d.points box d.sampleSize d.k)
      outcome :=
    fun j t => repetition_alike_of_computes computes computes spans d.k_pos enough stream
      d.sampleSize j t s
  have ends' : EndsAs (repetition o' (streamSource K) stream d.points box d.sampleSize d.k)
      outcome :=
    fun j t => repetition_alike_of_computes computes' computes spans d.k_pos enough stream
      d.sampleSize j t s
  exact sameSummary_of_endsAs ends ends' merging d.repetitions_pos (Backend.workers_pos host)
    (Backend.workers_pos host') _ _

end Summaries

/-! ## Runs -/

/-- Two runs that cannot be told apart: both return, with numbers that are related as given, or
both raise the same failure of the oracle. -/
inductive SameEnd {K : Type} (alike : Params K → Params K → Prop) :
    Except Error (Report (Params K) RunInfo K) → Except Error (Report (Params K) RunInfo K) → Prop
  | returned {report report' : Report (Params K) RunInfo K}
    (same : alike report.params report'.params) : SameEnd alike (.ok report) (.ok report')
  | raised {e : Error} (failure : e.IsOracleFailure) : SameEnd alike (.error e) (.error e)

section Exact

variable {σ τ K : Type} [Field K] [LinearOrder K] [IsStrictOrderedRing K] [Scalar K]
variable [Scalar.Exact K] [Roots K] [BetaTails K] [BetaTails.Exact K]

/-- Without rounding, two runs on oracles for one function cannot be told apart. -/
theorem sameEnd_of_computes {f : List K → ℤ → K} {host host' : Host K} {b : Backend σ K}
    {b' : Backend τ K} {d : Design K} {o : Oracle σ K} {o' : Oracle τ K}
    (ready : b.oracle d.points = .ok o) (ready' : b'.oracle d.points = .ok o')
    (computes : o.Computes f d.points.size d.points.dim)
    (computes' : o'.Computes f d.points.size d.points.dim)
    (entropy : d.seed.getD host.freshEntropy = d.seed.getD host'.freshEntropy) (s : σ) (s' : τ) :
    SameEnd (· = ·) (b.solve host d s).1 (b'.solve host' d s').1 := by
  rcases Nat.lt_or_ge d.points.size (d.k + 1) with few | enough
  · rw [Backend.solve_of_few host s (Backend.checkBuilt_of_oracle ready) few,
      Backend.solve_of_few host' s' (Backend.checkBuilt_of_oracle ready') few]
    exact .raised rfl
  obtain ⟨box, boxed, _⟩ := d.box_ok
  have same : SameSummary (· = ·) (b.sampled host d o s) (b'.sampled host' d o' s') :=
    sampled_same Tally.mergeAll_congr entropy enough computes computes' s s'
  have ends := Backend.sampled_ends_of_sums (b := b) (o := o) sumsAs_nonneg
    (fun _ _ => isTextbook_ofSums) enough host s
  generalize ran : b.sampled host d o s = summary at same ends
  generalize ran' : b'.sampled host' d o' s' = summary' at same
  cases same with
  | failed e =>
      rw [Backend.solve_of_sampled_error host ready enough boxed ran,
        Backend.solve_of_sampled_error host' ready' enough boxed ran']
      cases ends with
      | error failure => exact .raised (failure.resolve_left id).1
  | @finished trials tally _ same =>
      subst same
      obtain ⟨pValue, significance, -⟩ := Significance.pValue_mem d.sampleSize_pos tally.h.mean
      obtain ⟨report, solved, params⟩ :=
        Backend.solve_of_pValue_ok host ready enough boxed ran significance
      obtain ⟨report', solved', params'⟩ :=
        Backend.solve_of_pValue_ok host' ready' enough boxed ran' significance
      rw [solved, solved']
      exact .returned (params.trans params'.symm)

end Exact

end PointPattern
