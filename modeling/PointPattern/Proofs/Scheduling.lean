/-
# The order of the turns does not matter

Repetitions on several workers end as they do on one worker, in whatever order the
workers take turns. The first failure in the order of the chunks is the one with the
lowest number, because the chunks laid end to end are all repetitions in order. Without a
failure every place is written once, by the worker whose chunk holds it, and with what the
repetition gives; merging the tallies of the chunks loses nothing but rounding.
-/

import PointPattern.Backend
import PointPattern.Proofs.Repetition
import PointPattern.Proofs.Tallies
import PointPattern.Proofs.Workers
import Mathlib.Data.List.Nodup
import Mathlib.Tactic.Choose

namespace PointPattern

open PointPattern.Random

namespace Progress

variable {σ K : Type} [Scalar K] {count pieces : ℕ} {s : σ}

/-- A worker starts with its chunk. -/
theorem getElem?_workers_start (count pieces : ℕ) (s : σ) (l : ℕ) :
    (start count pieces s : Progress σ K).workers[l]? =
      if l < pieces then some { pending := chunk count pieces l, tally := .empty } else none := by
  rw [start, List.getElem?_map, chunks, List.getElem?_map]
  by_cases inside : l < pieces
  · rw [if_pos inside, List.getElem?_range inside]
    rfl
  · rw [if_neg inside, List.getElem?_eq_none (by simpa using inside)]
    rfl

theorem pendingOf_start (l : ℕ) :
    (start count pieces s : Progress σ K).pendingOf l =
      if l < pieces then chunk count pieces l else [] := by
  rw [pendingOf, getElem?_workers_start]
  split <;> rfl

variable [Add K] [Sub K] [Mul K] [Div K]
variable {run : ℕ → Step σ (Trial K)} {outcome : ℕ → Except Error (Trial K)} {turns : List ℕ}

/-- Taking all turns in order leaves nothing to run. -/
theorem settled_turnsInOrder (ends : EndsAs run outcome) (count pieces : ℕ) (s : σ) :
    ((start count pieces s).runTurns run (turnsInOrder count pieces)).Settled := by
  intro w mem
  obtain ⟨l, found⟩ := List.mem_iff_getElem?.1 mem
  rw [getElem?_workers_runTurns ends, getElem?_workers_start] at found
  split at found
  · next inside =>
      rw [Option.map_some, Option.some.injEq] at found
      rw [← found]
      apply Worker.pending_iterate_next
      have own_turns : (List.replicate (chunk count pieces l).length l).Sublist
          (turnsInOrder count pieces) :=
        List.sublist_flatten_of_mem (List.mem_map.2 ⟨l, List.mem_range.2 inside, rfl⟩)
      have enough := own_turns.count_le l
      rwa [List.count_replicate_self] at enough
  · cases found

/-- The failure that is reported is that of the lowest number. -/
theorem failure?_of_settled (ends : EndsAs run outcome) (some_pieces : 0 < pieces)
    (settled : ((start count pieces s).runTurns run turns).Settled) :
    ((start count pieces s).runTurns run turns).failure? =
      (List.range count).findSome? (failureOf outcome) := by
  rw [failure?, workers_eq_of_settled ends settled, start, List.map_map, List.findSome?_map,
    ← flatten_chunks some_pieces, ← List.head?_filterMap (f := failureOf outcome),
    List.filterMap_flatten, List.head?_flatten, List.findSome?_map]
  refine congrArg (fun find => (chunks count pieces).findSome? find) (funext fun piece => ?_)
  calc (Worker.finishFrom outcome piece .empty none).failure
      = (piece.findSome? (failureOf outcome)).or none := Worker.failure_finishFrom piece .empty none
    _ = piece.findSome? (failureOf outcome) := Option.or_none
    _ = (piece.filterMap (failureOf outcome)).head? := List.head?_filterMap.symm

variable {trials : ℕ → Trial K}

/-- With a failure, the one of the lowest number is raised. -/
theorem collect_of_failure {e : Error} (ends : EndsAs run outcome) (some_pieces : 0 < pieces)
    (found : (List.range count).findSome? (failureOf outcome) = some e)
    (settled : ((start count pieces s).runTurns run turns).Settled) :
    ((start count pieces s).runTurns run turns).collect = .error e := by
  rw [collect, failure?_of_settled ends some_pieces settled, found]

/-- Without a failure, each place is written once, by the worker whose chunk holds it. -/
theorem filter_place_writes (ends : EndsAs run outcome)
    (complete : ∀ j < count, outcome j = .ok (trials j))
    (settled : ((start count pieces s).runTurns run turns).Settled) {i j : ℕ}
    (inside : i < pieces) (holds : j ∈ chunk count pieces i) :
    (writes run turns (start count pieces s)).filter (·.place = j) = [⟨i, j, trials j⟩] := by
  have of_worker (l : ℕ) :
      (writes run turns (start count pieces s)).filter (·.worker = l) =
        if l < pieces then (chunk count pieces l).map fun j => ⟨l, j, trials j⟩ else [] := by
    rw [filter_writes_of_settled ends settled, pendingOf_start]
    split
    · next inside =>
        exact fills_of_forall_ok l fun j mem => complete j (lt_of_mem_chunk inside mem)
    · rfl
  have own : ∀ w ∈ writes run turns (start count pieces s), w.place = j → w.worker = i := by
    intro w mem here
    have mem_own : w ∈ (writes run turns (start count pieces s)).filter
        (fun other => decide (other.worker = w.worker)) :=
      List.mem_filter.2 ⟨mem, decide_eq_true rfl⟩
    rw [of_worker] at mem_own
    split at mem_own
    · obtain ⟨j', holds', same⟩ := List.mem_map.1 mem_own
      rw [← same] at here
      dsimp only at here
      subst here
      exact eq_of_mem_chunk holds' holds
    · cases mem_own
  calc (writes run turns (start count pieces s)).filter (·.place = j)
      = ((writes run turns (start count pieces s)).filter (·.worker = i)).filter
          (·.place = j) := by
        rw [List.filter_filter]
        apply List.filter_congr
        intro w mem
        by_cases here : w.place = j
        · simp [here, own w mem here]
        · simp [here]
    _ = ((chunk count pieces i).filter (· = j)).map fun j => ⟨i, j, trials j⟩ := by
        rw [of_worker, if_pos inside, List.filter_map]
        rfl
    _ = [⟨i, j, trials j⟩] := by
        rw [List.filter_eq, List.count_eq_one_of_mem (nodup_chunk count pieces i) holds]
        rfl

/-- Without a failure, each place holds in the end what its repetition gives. -/
theorem places_of_settled (ends : EndsAs run outcome) (some_pieces : 0 < pieces)
    (complete : ∀ j < count, outcome j = .ok (trials j))
    (settled : ((start count pieces s).runTurns run turns).Settled) :
    ((start count pieces s).runTurns run turns).places =
      (List.range count).map fun j => some (trials j) := by
  apply List.ext_getElem?
  intro j
  rw [places_runTurns, getElem?_foldl_set, List.getElem?_map]
  by_cases inside : j < count
  · obtain ⟨i, i_inside, holds⟩ := exists_mem_chunk some_pieces inside
    rw [filter_place_writes ends complete settled i_inside holds, List.getElem?_range inside,
      start, List.getElem?_replicate_of_lt inside]
    rfl
  · rw [start, List.getElem?_eq_none (by simpa using inside),
      List.getElem?_eq_none (by simpa using inside)]
    rfl

/-- Without a failure, the tallies of the chunks are merged. -/
theorem collect_of_settled (ends : EndsAs run outcome) (some_pieces : 0 < pieces)
    (complete : ∀ j < count, outcome j = .ok (trials j))
    (settled : ((start count pieces s).runTurns run turns).Settled) :
    ((start count pieces s).runTurns run turns).collect =
      .ok ⟨(List.range count).map trials,
        Tally.empty.mergeAll ((chunks count pieces).map (List.map trials))⟩ := by
  have no_failure : (List.range count).findSome? (failureOf outcome) = none := by
    refine List.findSome?_eq_none_iff.2 fun j mem => ?_
    rw [failureOf, complete j (List.mem_range.1 mem)]
  have merged : ((start count pieces s).runTurns run turns).workers.foldl
      (fun tally worker => tally.merge worker.tally) Tally.empty =
        Tally.empty.mergeAll ((chunks count pieces).map (List.map trials)) := by
    rw [workers_eq_of_settled ends settled, start, List.map_map, List.foldl_map,
      Tally.mergeAll, List.foldl_map]
    apply List.foldl_ext _ _ _
    intro tally piece mem
    obtain ⟨i, i_mem, rfl⟩ := List.mem_map.1 mem
    refine congrArg tally.merge (Worker.tally_finishFrom (fun j holds => ?_) .empty none)
    exact complete j (lt_of_mem_chunk (List.mem_range.1 i_mem) holds)
  rw [collect, failure?_of_settled ends some_pieces settled, no_failure]
  dsimp only
  rw [merged, places_of_settled ends some_pieces complete settled, List.filterMap_map]
  rw [show (id ∘ fun j => some (trials j)) = fun j => some (trials j) from rfl,
    List.filterMap_eq_map']

end Progress

/-! ## Several workers and one -/

/-- How a run on workers that take turns ends, next to a run on one worker: both end in
the failure of the lowest number that fails, or both have the same numbers in the same
places. In the second case every place was written once, by the only worker whose chunk
holds it, all repetitions were counted, and the tallies are related as given. -/
inductive Agree {σ K : Type} [Add K] [Sub K] [Mul K] [Div K] [Scalar K]
    (same : Tally K → Tally K → Prop) (run : ℕ → Step σ (Trial K)) (count workers : ℕ)
    (turns : List ℕ) (s : σ) (alone : Except Error (Summary K)) : Prop
  | failed {j : ℕ} {e : Error} (inside : j < count) (fails : ∀ t, (run j t).1 = .error e)
      (first : ∀ i < j, ∃ trial, ∀ t, (run i t).1 = .ok trial)
      (several : (runInterleaved run count workers turns s).1 = .error e)
      (one : alone = .error e)
  | finished {trials : List (Trial K)} {tally tally' : Tally K}
      (several : (runInterleaved run count workers turns s).1 = .ok ⟨trials, tally⟩)
      (one : alone = .ok ⟨trials, tally'⟩)
      (counts : tally.Counts count) (counts' : tally'.Counts count) (alike : same tally tally')
      (places : trials.length = count)
      (written : ∀ j trial, trials[j]? = some trial → (∀ t, (run j t).1 = .ok trial) ∧
        ∃ i < workers, (∀ l, j ∈ chunk count workers l ↔ l = i) ∧
          (Progress.writes run turns (Progress.start count workers s)).filter (·.place = j) =
            [⟨i, j, trial⟩])

section Agreement

variable {σ K : Type} [Add K] [Sub K] [Mul K] [Div K] [Scalar K]
variable {run : ℕ → Step σ (Trial K)} {outcome : ℕ → Except Error (Trial K)}
variable {count workers : ℕ} {turns : List ℕ}

/-- Repetitions that end in the same way in every state may be run on any number of workers
in any order, as far as merging tallies is immaterial. -/
theorem EndsAs.agree (ends : EndsAs run outcome) {same : Tally K → Tally K → Prop}
    (merging : ∀ lists lists' : List (List (Trial K)), lists.flatten = lists'.flatten →
      same (Tally.empty.mergeAll lists) (Tally.empty.mergeAll lists'))
    (some_count : 0 < count) (some_workers : 0 < workers) (s s' : σ)
    (settled : ((Progress.start count workers s).runTurns run turns).Settled) :
    Agree same run count workers turns s (runTrials run count 1 s').1 := by
  have settled' := Progress.settled_turnsInOrder ends count 1 s'
  cases found : (List.range count).findSome? (failureOf outcome) with
  | some e =>
      obtain ⟨j, inside, failure, earlier⟩ := exists_firstFailure found
      refine .failed inside (fun t => (ends j t).trans failure) (fun i i_lt => ?_)
        (Progress.collect_of_failure ends some_workers found settled)
        (Progress.collect_of_failure ends Nat.one_pos found settled')
      obtain ⟨trial, ended⟩ := earlier i i_lt
      exact ⟨trial, fun t => (ends i t).trans ended⟩
  | none =>
      obtain ⟨trials, complete⟩ := exists_trials some_count found
      have flat {pieces : ℕ} (some_pieces : 0 < pieces) :
          ((chunks count pieces).map (List.map trials)).flatten =
            (List.range count).map trials := by
        rw [← List.map_flatten, flatten_chunks some_pieces]
      have counted {pieces : ℕ} (some_pieces : 0 < pieces) :
          (Tally.empty.mergeAll ((chunks count pieces).map (List.map trials))).Counts count := by
        have counts := Tally.counts_empty.mergeAll ((chunks count pieces).map (List.map trials))
        rwa [flat some_pieces, List.length_map, List.length_range, Nat.zero_add] at counts
      refine .finished (Progress.collect_of_settled ends some_workers complete settled)
        (Progress.collect_of_settled ends Nat.one_pos complete settled')
        (counted some_workers) (counted Nat.one_pos)
        (merging _ _ ((flat some_workers).trans (flat Nat.one_pos).symm)) (by simp)
        fun j trial found => ?_
      obtain ⟨inside, rfl⟩ : j < count ∧ trials j = trial := by
        simpa [List.getElem?_eq_some_iff] using found
      obtain ⟨i, i_inside, holds⟩ := exists_mem_chunk some_workers inside
      refine ⟨fun t => (ends j t).trans (complete j inside), i, i_inside, fun l => ?_,
        Progress.filter_place_writes ends complete settled i_inside holds⟩
      constructor
      · exact fun holds' => eq_of_mem_chunk holds' holds
      · rintro rfl
        exact holds

end Agreement

/-- Scheduling does not matter. On an oracle whose answers depend on the query and the rank
alone, the repetitions end on any number of workers, in any order of turns that leaves
nothing to run, as they do on one worker; in exact arithmetic the tallies are the same, too.
This holds of every source, every stream for each repetition, every request for workers and
every number of processors. -/
theorem runInterleaved_agree :
    (∀ {σ γ K : Type} [Add K] [Sub K] [Mul K] [Div K] [Scalar K] (o : Oracle σ K)
      (source : Source γ K) (stream : ℕ → γ) (data : PointSet K) (box : Box K) (size k : ℤ)
      (count : ℕ) (jobs : ℤ) (processors processors' : Option ℕ) (turns : List ℕ) (s s' : σ),
      let run := repetition o source stream data box size k
      let workers := (resolveJobs jobs count processors).toNat
      o.IsStateless → 1 ≤ count →
      ((Progress.start count workers s).runTurns run turns).Settled →
      Agree (fun _ _ => True) run count workers turns s
        (runTrials run count (resolveJobs 1 count processors').toNat s').1) ∧
    (∀ {σ γ K : Type} [Field K] [LinearOrder K] [IsStrictOrderedRing K] [Scalar K]
      [Scalar.Exact K] (o : Oracle σ K)
      (source : Source γ K) (stream : ℕ → γ) (data : PointSet K) (box : Box K) (size k : ℤ)
      (count : ℕ) (jobs : ℤ) (processors processors' : Option ℕ) (turns : List ℕ) (s s' : σ),
      let run := repetition o source stream data box size k
      let workers := (resolveJobs jobs count processors).toNat
      o.IsStateless → 1 ≤ count →
      ((Progress.start count workers s).runTurns run turns).Settled →
      Agree (· = ·) run count workers turns s
        (runTrials run count (resolveJobs 1 count processors').toNat s').1) := by
  constructor
  · intro σ γ K _ _ _ _ _ o source stream data box size k count jobs processors processors' turns
      s s' run workers stateless some_count settled
    have ends : EndsAs run fun j => (run j s).1 :=
      fun j t => repetition_alike stateless.alike source stream data box size k j t s
    rw [resolveJobs_one (by exact_mod_cast some_count)]
    exact ends.agree (fun _ _ _ => trivial) some_count (toNat_resolveJobs_pos _ _ _) s s' settled
  · intro σ γ K _ _ _ _ _ o source stream data box size k count jobs processors processors' turns
      s s' run workers stateless some_count settled
    have ends : EndsAs run fun j => (run j s).1 :=
      fun j t => repetition_alike stateless.alike source stream data box size k j t s
    have merging (lists lists' : List (List (Trial K))) (flat : lists.flatten = lists'.flatten) :
        Tally.empty.mergeAll lists = Tally.empty.mergeAll lists' := by
      have one_pass (lists : List (List (Trial K))) :
          Tally.empty.mergeAll lists = Tally.ofList lists.flatten :=
        Tally.mergeAll_ofList [] lists
      rw [one_pass, one_pass, flat]
    rw [resolveJobs_one (by exact_mod_cast some_count)]
    exact ends.agree merging some_count (toNat_resolveJobs_pos _ _ _) s s' settled

/-- An oracle that counts its calls and answers with the first coordinate. -/
def countingOracle : Oracle ℕ ℚ where
  label := "CountingOracle"
  distance point _ := fun calls => (.ok |point.values.headD 0|, calls + 1)
  distances points _ := fun calls =>
    (.ok (.ofPoint (points.subgrids.map fun point => |point.values.headD 0|)), calls + 1)

/-- Three points on a line. -/
def threePoints : PointSet ℚ where
  dim := 1
  points := [[0], [1], [3]]
  dim_pos := Nat.one_pos
  points_ne_nil := List.cons_ne_nil _ _
  length_eq := by decide

/-- Two workers that take turns over three repetitions, on the streams of a seed. -/
theorem runInterleaved_agree_threePoints :
    (resolveJobs (-1) (3 : ℕ) (some 2)).toNat = 2 ∧
      Agree (· = ·)
        (repetition countingOracle (streamSource ℚ) (Backend.streamOf 7) threePoints
          ⟨[0], [3], .override⟩ 2 1)
        3 (resolveJobs (-1) (3 : ℕ) (some 2)).toNat [1, 0, 1, 0] 0
        (runTrials
          (repetition countingOracle (streamSource ℚ) (Backend.streamOf 7) threePoints
            ⟨[0], [3], .override⟩ 2 1)
          3 (resolveJobs 1 (3 : ℕ) none).toNat 5).1 :=
  ⟨rfl, runInterleaved_agree.2 countingOracle (streamSource ℚ) (Backend.streamOf 7) threePoints
    ⟨[0], [3], .override⟩ 2 1 3 (-1) (some 2) none [1, 0, 1, 0] 0 5
    ⟨fun _ _ _ _ => rfl, fun _ _ _ _ => rfl⟩ (by decide) (by decide +kernel)⟩

end PointPattern
