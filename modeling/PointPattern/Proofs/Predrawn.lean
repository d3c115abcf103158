/-
# Fixing the outcomes in advance

An oracle with a memory may answer a query differently each time, so that a repetition
need not end in the same way in every state. Every repetition is run once at most,
however. The outcomes of a run can therefore be fixed in advance, and what is known of
repetitions with fixed outcomes holds of runs on any oracle. The outcomes depend on the
turns and on the state at the start.
-/

import PointPattern.Proofs.Queries
import PointPattern.Proofs.Scheduling

namespace PointPattern

variable {σ K : Type}

/-- Repetitions that change the state as before but end as given. -/
def predraw (run : ℕ → Step σ (Trial K)) (outcome : ℕ → Except Error (Trial K)) (j : ℕ) :
    Step σ (Trial K) :=
  fun s => (outcome j, (run j s).2)

theorem endsAs_predraw (run : ℕ → Step σ (Trial K)) (outcome : ℕ → Except Error (Trial K)) :
    EndsAs (predraw run outcome) outcome := fun _ _ => rfl

namespace Progress

/-- The repetitions that are still to be run, worker by worker. -/
def pendings (p : Progress σ K) : List ℕ := p.workers.flatMap (·.pending)

theorem pendings_start [Scalar K] {count pieces : ℕ} (some_pieces : 0 < pieces) (s : σ) :
    (start count pieces s : Progress σ K).pendings = List.range count := by
  rw [pendings, start, List.flatMap_map, ← flatten_chunks some_pieces]
  exact List.flatMap_id

/-- What a worker has still to run stands in one place of what all have. -/
theorem pendings_set {p : Progress σ K} {i : ℕ} {w : Worker K} (found : p.workers[i]? = some w) :
    ∃ before after, p.pendings = before ++ w.pending ++ after ∧
      ∀ w' : Worker K, (p.workers.set i w').flatMap (·.pending) =
        before ++ w'.pending ++ after := by
  obtain ⟨inside, rfl⟩ := List.getElem?_eq_some_iff.1 found
  refine ⟨(p.workers.take i).flatMap (·.pending), (p.workers.drop (i + 1)).flatMap (·.pending),
    ?_, fun w' => ?_⟩
  · have cut : p.workers = p.workers.take i ++ p.workers[i] :: p.workers.drop (i + 1) := by
      rw [List.getElem_cons_drop, List.take_append_drop]
    rw [pendings]
    conv_lhs => rw [cut]
    rw [List.flatMap_append, List.flatMap_cons, List.append_assoc]
  · rw [List.set_eq_take_append_cons_drop, if_pos inside, List.flatMap_append, List.flatMap_cons,
      List.append_assoc]

theorem worker_of_pendingOf {p : Progress σ K} {i j : ℕ} {rest : List ℕ}
    (pending : p.pendingOf i = j :: rest) :
    ∃ w, p.workers[i]? = some w ∧ w.pending = j :: rest := by
  rw [pendingOf] at pending
  cases found : p.workers[i]? with
  | none =>
      rw [found] at pending
      cases pending
  | some w =>
      rw [found] at pending
      exact ⟨w, rfl, pending⟩

variable [Add K] [Sub K] [Mul K] [Div K] [Scalar K]
variable {run run' : ℕ → Step σ (Trial K)}

/-- A turn takes a repetition from those that are still to be run, or leaves them alone. -/
theorem pendings_advance (run : ℕ → Step σ (Trial K)) (p : Progress σ K) (i : ℕ) :
    (p.advance run i).pendings.Sublist p.pendings := by
  have turn := turn_advance run p i
  generalize p.advance run i = q at turn
  cases turn with
  | idle nothing => exact .refl _
  | @fill w j rest trial s found pending ran =>
      obtain ⟨before, after, all, others⟩ := pendings_set found
      rw [all, pendings, others, pending]
      exact ((List.sublist_cons_self j rest).append_left before).append_right after
  | @stop w j rest e s found pending ran =>
      obtain ⟨before, after, all, others⟩ := pendings_set found
      rw [all, pendings, others]
      exact ((List.nil_sublist w.pending).append_left before).append_right after

/-- A repetition that was run is not run again. -/
theorem not_mem_pendings_advance (run : ℕ → Step σ (Trial K)) {p : Progress σ K} {i j : ℕ}
    {w : Worker K} {rest : List ℕ}
    (found : p.workers[i]? = some w) (pending : w.pending = j :: rest)
    (nodup : p.pendings.Nodup) : j ∉ (p.advance run i).pendings := by
  obtain ⟨before, after, all, others⟩ := pendings_set found
  rw [all, pending, List.append_assoc, List.cons_append, List.nodup_middle,
    List.nodup_cons] at nodup
  have turn := turn_advance run p i
  generalize p.advance run i = q at turn
  cases turn with
  | idle nothing =>
      have idle := nothing w found
      rw [pending] at idle
      cases idle
  | @fill w' j' rest' trial s found' pending' ran =>
      rw [found, Option.some.injEq] at found'
      subst found'
      rw [pending, List.cons.injEq] at pending'
      rw [pendings, others, List.append_assoc, ← pending'.2]
      exact nodup.1
  | @stop w' j' rest' e s found' pending' ran =>
      rw [pendings, others, List.append_nil]
      intro mem
      apply nodup.1
      rcases List.mem_append.1 mem with left | right
      · exact List.mem_append_left _ left
      · exact List.mem_append_right _ (List.mem_append_right _ right)

/-- A turn depends on the repetition that is run in it, and only in the state at hand. -/
theorem advance_congr {p : Progress σ K} {i : ℕ}
    (same : ∀ j rest, p.pendingOf i = j :: rest → run j p.state = run' j p.state) :
    p.advance run i = p.advance run' i := by
  rw [advance, advance]
  cases found : p.workers[i]? with
  | none => rfl
  | some w =>
      dsimp only
      cases pending : w.pending with
      | nil => rfl
      | cons j rest =>
          have next : p.pendingOf i = j :: rest := by
            rw [pendingOf, found]
            exact pending
          dsimp only
          rw [same j rest next]

/-- Only repetitions that are still to be run matter to the turns that follow. -/
theorem runTurns_congr {p : Progress σ K} (same : ∀ j ∈ p.pendings, ∀ s, run j s = run' j s)
    (turns : List ℕ) : p.runTurns run turns = p.runTurns run' turns := by
  induction turns generalizing p with
  | nil => rfl
  | cons i turns ih =>
      have first : p.advance run i = p.advance run' i := by
        refine advance_congr fun j rest next => same j ?_ p.state
        obtain ⟨w, found, pending⟩ := worker_of_pendingOf next
        refine List.mem_flatMap.2 ⟨w, List.mem_of_getElem? found, ?_⟩
        rw [pending]
        exact List.mem_cons_self
      rw [runTurns_cons, runTurns_cons, ← first]
      exact ih fun j mem => same j ((pendings_advance run p i).subset mem)

/-- The outcomes of repetitions that are each run once can be fixed in advance. -/
theorem exists_outcome (run : ℕ → Step σ (Trial K)) (turns : List ℕ) {p : Progress σ K}
    (nodup : p.pendings.Nodup) :
    ∃ outcome : ℕ → Except Error (Trial K), (∀ j, ∃ s, (run j s).1 = outcome j) ∧
      p.runTurns run turns = p.runTurns (predraw run outcome) turns := by
  induction turns generalizing p with
  | nil => exact ⟨fun j => (run j p.state).1, fun j => ⟨p.state, rfl⟩, rfl⟩
  | cons i turns ih =>
      obtain ⟨outcome, given, later⟩ := ih (nodup.sublist (pendings_advance run p i))
      cases next : p.pendingOf i with
      | nil =>
          have idle : p.advance run i = p.advance (predraw run outcome) i := by
            apply advance_congr
            intro j rest pending
            rw [next] at pending
            cases pending
          refine ⟨outcome, given, ?_⟩
          rw [runTurns_cons, runTurns_cons, later, idle]
      | cons j rest =>
          -- The outcome of this turn is set aside; no later turn asks for it.
          obtain ⟨outcome', here, elsewhere⟩ : ∃ outcome' : ℕ → Except Error (Trial K),
              outcome' j = (run j p.state).1 ∧ ∀ j' ≠ j, outcome' j' = outcome j' :=
            ⟨Function.update outcome j (run j p.state).1, Function.update_self ..,
              fun _ other => Function.update_of_ne other ..⟩
          have first : p.advance run i = p.advance (predraw run outcome') i := by
            apply advance_congr
            intro j' rest' pending
            rw [next, List.cons.injEq] at pending
            rw [← pending.1]
            exact Prod.ext here.symm rfl
          have others : (p.advance run i).runTurns (predraw run outcome) turns =
              (p.advance run i).runTurns (predraw run outcome') turns := by
            obtain ⟨w, found, pending⟩ := worker_of_pendingOf next
            have gone := not_mem_pendings_advance run found pending nodup
            refine runTurns_congr (fun j' mem s => ?_) turns
            have other : j' ≠ j := by
              rintro rfl
              exact gone mem
            rw [predraw, predraw, elsewhere j' other]
          refine ⟨outcome', fun j' => ?_, ?_⟩
          · by_cases same : j' = j
            · subst same
              exact ⟨p.state, here.symm⟩
            · obtain ⟨s, ended⟩ := given j'
              exact ⟨s, ended.trans (elsewhere j' same).symm⟩
          · rw [runTurns_cons, runTurns_cons, later, others, first]

end Progress

section Run

variable [Add K] [Sub K] [Mul K] [Div K] [Scalar K]
variable {run : ℕ → Step σ (Trial K)} {fails : Error → Prop} {good : Trial K → Prop}

/-- Whatever a repetition may end in, the run of all of them ends in a failure of that kind,
or with what as many repetitions of that kind give, in whatever order the workers take their
turns. -/
theorem runInterleaved_ends (each : ∀ j s, Ends fails good (run j s).1) {count pieces : ℕ}
    (some_count : 0 < count) (some_pieces : 0 < pieces) {turns : List ℕ} {s : σ}
    (settled : ((Progress.start count pieces s).runTurns run turns).Settled) :
    Ends fails
      (fun summary => ∃ trials : ℕ → Trial K, (∀ j < count, good (trials j)) ∧
        summary = ⟨(List.range count).map trials,
          Tally.empty.mergeAll ((chunks count pieces).map (List.map trials))⟩)
      (runInterleaved run count pieces turns s).1 := by
  have nodup : (Progress.start count pieces s : Progress σ K).pendings.Nodup := by
    rw [Progress.pendings_start some_pieces]
    exact List.nodup_range
  obtain ⟨outcome, given, same⟩ := Progress.exists_outcome run turns nodup
  have outcome_ends (j : ℕ) : Ends fails good (outcome j) := by
    obtain ⟨t, ended⟩ := given j
    rw [← ended]
    exact each j t
  have ends := endsAs_predraw run outcome
  show Ends fails _ ((Progress.start count pieces s).runTurns run _).collect
  rw [same] at settled ⊢
  cases found : (List.range count).findSome? (failureOf outcome) with
  | some e =>
      rw [Progress.collect_of_failure ends some_pieces found settled]
      obtain ⟨j, -, failure, -⟩ := exists_firstFailure found
      have outcome_j := outcome_ends j
      rw [failure] at outcome_j
      cases outcome_j with
      | error failure => exact .error failure
  | none =>
      have succeeds (j : ℕ) (inside : j < count) :
          ∃ trial, outcome j = .ok trial ∧ good trial := by
        obtain ⟨trial, ended⟩ :=
          ok_of_failureOf (List.findSome?_eq_none_iff.1 found j (List.mem_range.2 inside))
        have outcome_j := outcome_ends j
        rw [ended] at outcome_j
        cases outcome_j with
        | ok result => exact ⟨trial, ended, result⟩
      have : Nonempty (Trial K) := ⟨(succeeds 0 some_count).choose⟩
      choose! trials complete results using succeeds
      rw [Progress.collect_of_settled ends some_pieces complete settled]
      exact .ok ⟨trials, results, rfl⟩

/-- One worker after the other leaves nothing to run. -/
theorem settled_runTurns_turnsInOrder (run : ℕ → Step σ (Trial K)) (count : ℕ) {pieces : ℕ}
    (some_pieces : 0 < pieces) (s : σ) :
    ((Progress.start count pieces s).runTurns run (turnsInOrder count pieces)).Settled := by
  have nodup : (Progress.start count pieces s : Progress σ K).pendings.Nodup := by
    rw [Progress.pendings_start some_pieces]
    exact List.nodup_range
  obtain ⟨outcome, -, same⟩ := Progress.exists_outcome run (turnsInOrder count pieces) nodup
  rw [same]
  exact Progress.settled_turnsInOrder (endsAs_predraw run outcome) count pieces s

end Run

end PointPattern
