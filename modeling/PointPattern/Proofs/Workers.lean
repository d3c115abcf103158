/-
# Workers that take turns

Suppose that every repetition ends in the same way whenever it is run. Then a worker
does not notice the turns of the others: after some turns it stands where as many turns
of its own have brought it, and once nothing is pending it has found what it would have
found alone. The places are settled by the writes, each of which belongs to one worker,
and the writes of one worker come in the order of its chunk.
-/

import PointPattern.Proofs.Chunks
import Mathlib.Logic.Function.Iterate
import Mathlib.Tactic.Choose

namespace PointPattern

variable {σ K : Type}

/-- Every repetition ends as given, whatever state it is run in. -/
def EndsAs (run : ℕ → Step σ (Trial K)) (outcome : ℕ → Except Error (Trial K)) : Prop :=
  ∀ j s, (run j s).1 = outcome j

/-- The failure of a repetition, if it fails. -/
def failureOf (outcome : ℕ → Except Error (Trial K)) (j : ℕ) : Option Error :=
  match outcome j with
  | .ok _ => none
  | .error e => some e

theorem ok_of_failureOf {outcome : ℕ → Except Error (Trial K)} {j : ℕ}
    (none_failed : failureOf outcome j = none) : ∃ trial, outcome j = .ok trial := by
  rw [failureOf] at none_failed
  split at none_failed
  · next trial ended => exact ⟨trial, ended⟩
  · cases none_failed

theorem error_of_failureOf {outcome : ℕ → Except Error (Trial K)} {j : ℕ} {e : Error}
    (failed : failureOf outcome j = some e) : outcome j = .error e := by
  rw [failureOf] at failed
  split at failed
  · cases failed
  · next e' ended => rw [ended, Option.some.inj failed]

/-- The failure that is found is that of the first repetition that fails. -/
theorem exists_firstFailure {outcome : ℕ → Except Error (Trial K)} {count : ℕ} {e : Error}
    (found : (List.range count).findSome? (failureOf outcome) = some e) :
    ∃ j < count, outcome j = .error e ∧ ∀ i < j, ∃ trial, outcome i = .ok trial := by
  obtain ⟨before, j, after, split_at, failure, earlier⟩ := List.findSome?_eq_some_iff.1 found
  have j_eq : (List.range count)[before.length]? = some j := by simp [split_at]
  obtain ⟨inside, rfl⟩ : before.length < count ∧ before.length = j := by
    simpa [List.getElem?_eq_some_iff] using j_eq
  refine ⟨before.length, inside, error_of_failureOf failure, fun i i_lt => ?_⟩
  have i_eq : (List.range count)[i]? = some i := List.getElem?_range (i_lt.trans inside)
  rw [split_at, List.getElem?_append_left i_lt] at i_eq
  exact ok_of_failureOf (earlier i (List.mem_of_getElem? i_eq))

/-- Without a failure every repetition gives a trial. -/
theorem exists_trials {outcome : ℕ → Except Error (Trial K)} {count : ℕ} (some_count : 0 < count)
    (none_failed : (List.range count).findSome? (failureOf outcome) = none) :
    ∃ trials : ℕ → Trial K, ∀ j < count, outcome j = .ok (trials j) := by
  have succeeds (j : ℕ) (inside : j < count) : ∃ trial, outcome j = .ok trial :=
    ok_of_failureOf (List.findSome?_eq_none_iff.1 none_failed j (List.mem_range.2 inside))
  have : Nonempty (Trial K) := ⟨(succeeds 0 some_count).choose⟩
  choose! trials complete using succeeds
  exact ⟨trials, complete⟩

/-- A place that was filled: by which worker, which place, and with what. -/
structure Write (K : Type) where
  worker : ℕ
  place : ℕ
  trial : Trial K

/-- What a worker writes: its repetitions up to the first that fails. -/
def fills (outcome : ℕ → Except Error (Trial K)) (l : ℕ) : List ℕ → List (Write K)
  | [] => []
  | j :: rest =>
    match outcome j with
    | .ok trial => ⟨l, j, trial⟩ :: fills outcome l rest
    | .error _ => []

theorem fills_of_forall_ok {outcome : ℕ → Except Error (Trial K)} {trials : ℕ → Trial K}
    {pending : List ℕ} (l : ℕ) (complete : ∀ j ∈ pending, outcome j = .ok (trials j)) :
    fills outcome l pending = pending.map fun j => ⟨l, j, trials j⟩ := by
  induction pending with
  | nil => rfl
  | cons j rest ih =>
      rw [fills, complete j List.mem_cons_self, List.map_cons]
      exact congrArg _ (ih fun i mem => complete i (List.mem_cons_of_mem j mem))

/-- What the writes to one place have left there. -/
theorem getElem?_foldl_set (ws : List (Write K)) (places : List (Option (Trial K))) (j : ℕ) :
    (ws.foldl (fun places w => places.set w.place (some w.trial)) places)[j]? =
      (places[j]?).map fun old =>
        (ws.filter (·.place = j)).foldl (fun _ w => some w.trial) old := by
  induction ws generalizing places with
  | nil => exact Option.map_id'.symm
  | cons w ws ih =>
      rw [List.foldl_cons, ih, List.getElem?_set]
      by_cases here : w.place = j
      · simp only [if_pos here, List.filter_cons, decide_eq_true here, if_true, List.foldl_cons]
        by_cases inside : w.place < places.length
        · rw [if_pos inside, ← here, List.getElem?_eq_getElem inside]
          rfl
        · rw [if_neg inside, ← here, List.getElem?_eq_none (Nat.le_of_not_lt inside)]
          rfl
      · simp [here]

namespace Progress

/-- Nothing is left to run: every worker is through or was stopped. -/
def Settled (p : Progress σ K) : Prop := ∀ w ∈ p.workers, w.pending = []

instance (p : Progress σ K) : Decidable p.Settled :=
  inferInstanceAs (Decidable (∀ w ∈ p.workers, w.pending = []))

/-- The repetitions that a worker has still to run. -/
def pendingOf (p : Progress σ K) (l : ℕ) : List ℕ := ((p.workers[l]?).map (·.pending)).getD []

theorem pendingOf_of_settled {p : Progress σ K} (settled : p.Settled) (l : ℕ) :
    p.pendingOf l = [] := by
  rw [pendingOf]
  cases found : p.workers[l]? with
  | none => rfl
  | some w => exact settled w (List.mem_of_getElem? found)

/-- The place that a turn fills, if it fills one. -/
def write? (run : ℕ → Step σ (Trial K)) (p : Progress σ K) (i : ℕ) : Option (Write K) :=
  match p.pendingOf i with
  | [] => none
  | j :: _ =>
    match (run j p.state).1 with
    | .ok trial => some ⟨i, j, trial⟩
    | .error _ => none

theorem worker_of_write? {run : ℕ → Step σ (Trial K)} {p : Progress σ K} {i : ℕ} {w : Write K}
    (wrote : p.write? run i = some w) : w.worker = i := by
  rw [write?] at wrote
  split at wrote
  · cases wrote
  · split at wrote
    · cases wrote
      rfl
    · cases wrote

end Progress

variable [Add K] [Sub K] [Mul K] [Div K] [Scalar K]

/-! ## One worker by itself -/

namespace Worker

variable (outcome : ℕ → Except Error (Trial K))

/-- The worker after a turn of its own. -/
def next (w : Worker K) : Worker K :=
  match w.pending with
  | [] => w
  | j :: rest =>
    match outcome j with
    | .ok trial => { w with pending := rest, tally := w.tally.push trial }
    | .error e => { w with pending := [], failure := some e }

/-- What becomes of a worker with these repetitions to run, this tally and this failure. -/
def finishFrom : List ℕ → Tally K → Option Error → Worker K
  | [], tally, failure => ⟨[], tally, failure⟩
  | j :: rest, tally, failure =>
    match outcome j with
    | .ok trial => finishFrom rest (tally.push trial) failure
    | .error e => ⟨[], tally, some e⟩

/-- The worker once it has run everything or was stopped. -/
def finish (w : Worker K) : Worker K := finishFrom outcome w.pending w.tally w.failure

variable {outcome}

theorem finish_of_pending_eq_nil {w : Worker K} (idle : w.pending = []) :
    w.finish outcome = w := by
  rw [finish, idle]
  cases w
  cases idle
  rfl

/-- A turn brings a worker nearer to the end and does not change what the end will be. -/
theorem finish_next (w : Worker K) : (w.next outcome).finish outcome = w.finish outcome := by
  obtain ⟨pending, tally, failure⟩ := w
  cases pending with
  | nil => rfl
  | cons j rest =>
      simp only [finish, next, finishFrom]
      cases outcome j with
      | ok trial => rfl
      | error e => rfl

theorem finish_iterate_next (n : ℕ) (w : Worker K) :
    ((next outcome)^[n] w).finish outcome = w.finish outcome := by
  induction n with
  | zero => rfl
  | succ n ih => rw [Function.iterate_succ_apply', finish_next, ih]

theorem length_pending_next_le (w : Worker K) :
    (w.next outcome).pending.length ≤ w.pending.length - 1 := by
  obtain ⟨pending, tally, failure⟩ := w
  cases pending with
  | nil => exact Nat.le_refl 0
  | cons j rest =>
      simp only [next]
      cases outcome j with
      | ok trial => exact Nat.le_refl _
      | error e => exact Nat.zero_le _

/-- As many turns as there are repetitions leave nothing pending. -/
theorem pending_iterate_next {n : ℕ} {w : Worker K} (enough : w.pending.length ≤ n) :
    ((next outcome)^[n] w).pending = [] := by
  induction n generalizing w with
  | zero => exact List.eq_nil_of_length_eq_zero (by simpa using enough)
  | succ n ih =>
      rw [Function.iterate_succ_apply]
      have fewer : (w.next outcome).pending.length ≤ w.pending.length - 1 :=
        length_pending_next_le w
      exact ih (by omega)

/-- The first failure among the repetitions is the one that stops the worker. -/
theorem failure_finishFrom (pending : List ℕ) (tally : Tally K) (failure : Option Error) :
    (finishFrom outcome pending tally failure).failure =
      (pending.findSome? (failureOf outcome)).or failure := by
  induction pending generalizing tally with
  | nil => rfl
  | cons j rest ih =>
      rw [finishFrom, List.findSome?_cons, failureOf]
      cases outcome j with
      | ok trial => exact ih _
      | error e => rfl

/-- Without a failure the tally takes in every repetition. -/
theorem tally_finishFrom {trials : ℕ → Trial K} {pending : List ℕ}
    (complete : ∀ j ∈ pending, outcome j = .ok (trials j)) (tally : Tally K)
    (failure : Option Error) :
    (finishFrom outcome pending tally failure).tally =
      (pending.map trials).foldl Tally.push tally := by
  induction pending generalizing tally with
  | nil => rfl
  | cons j rest ih =>
      rw [finishFrom, complete j List.mem_cons_self, List.map_cons, List.foldl_cons]
      exact ih (fun i mem => complete i (List.mem_cons_of_mem j mem)) _

end Worker

/-! ## All workers -/

namespace Progress

/-- What a turn of a worker can come to. -/
inductive Turn (run : ℕ → Step σ (Trial K)) (p : Progress σ K) (i : ℕ) : Progress σ K → Prop
  /-- There is no such worker, or it has nothing to run. -/
  | idle (nothing : ∀ w, p.workers[i]? = some w → w.pending = []) : Turn run p i p
  /-- The worker runs a repetition and fills its place. -/
  | fill {w : Worker K} {j : ℕ} {rest : List ℕ} {trial : Trial K} {s : σ}
      (found : p.workers[i]? = some w) (pending : w.pending = j :: rest)
      (ran : run j p.state = (.ok trial, s)) :
      Turn run p i
        { workers := p.workers.set i
            { w with pending := rest, tally := w.tally.push trial }
          places := p.places.set j (some trial)
          state := s }
  /-- The repetition fails and stops the worker. -/
  | stop {w : Worker K} {j : ℕ} {rest : List ℕ} {e : Error} {s : σ}
      (found : p.workers[i]? = some w) (pending : w.pending = j :: rest)
      (ran : run j p.state = (.error e, s)) :
      Turn run p i
        { p with
          workers := p.workers.set i { w with pending := [], failure := some e }
          state := s }

theorem turn_advance (run : ℕ → Step σ (Trial K)) (p : Progress σ K) (i : ℕ) :
    Turn run p i (p.advance run i) := by
  cases found : p.workers[i]? with
  | none =>
      simp only [advance, found]
      exact .idle fun w some_worker => by simp [found] at some_worker
  | some w =>
      cases pending : w.pending with
      | nil =>
          simp only [advance, found, pending]
          exact .idle fun w' same => by
            rw [found, Option.some.injEq] at same
            rw [← same, pending]
      | cons j rest =>
          rcases ran : run j p.state with ⟨e | trial, s⟩
          · simp only [advance, found, pending, ran]
            exact .stop found pending ran
          · simp only [advance, found, pending, ran]
            exact .fill found pending ran

variable {run : ℕ → Step σ (Trial K)} {outcome : ℕ → Except Error (Trial K)}

theorem runTurns_cons (i : ℕ) (turns : List ℕ) (p : Progress σ K) :
    p.runTurns run (i :: turns) = (p.advance run i).runTurns run turns := rfl

/-- A turn moves the worker whose turn it is and no other. -/
theorem getElem?_workers_advance (ends : EndsAs run outcome) (p : Progress σ K) (i l : ℕ) :
    (p.advance run i).workers[l]? =
      if l = i then (p.workers[l]?).map (Worker.next outcome) else p.workers[l]? := by
  have turn := turn_advance run p i
  generalize p.advance run i = q at turn
  by_cases same : l = i
  · subst same
    rw [if_pos rfl]
    cases turn with
    | idle nothing =>
        cases found : p.workers[l]? with
        | none => rfl
        | some w => simp [Worker.next, nothing w found]
    | @fill w j rest trial s found pending ran =>
        have ended : outcome j = .ok trial := by rw [← ends j p.state, ran]
        have inside : l < p.workers.length := (List.getElem?_eq_some_iff.1 found).1
        rw [List.getElem?_set_self inside, found, Option.map_some]
        simp only [Worker.next, pending, ended]
    | @stop w j rest e s found pending ran =>
        have ended : outcome j = .error e := by rw [← ends j p.state, ran]
        have inside : l < p.workers.length := (List.getElem?_eq_some_iff.1 found).1
        rw [List.getElem?_set_self inside, found, Option.map_some]
        simp only [Worker.next, pending, ended]
  · rw [if_neg same]
    cases turn with
    | idle nothing => rfl
    | fill found pending ran => exact List.getElem?_set_ne (Ne.symm same)
    | stop found pending ran => exact List.getElem?_set_ne (Ne.symm same)

/-- After some turns a worker stands where as many turns of its own have brought it. -/
theorem getElem?_workers_runTurns (ends : EndsAs run outcome) (turns : List ℕ)
    (p : Progress σ K) (l : ℕ) :
    (p.runTurns run turns).workers[l]? =
      (p.workers[l]?).map (Worker.next outcome)^[turns.count l] := by
  induction turns generalizing p with
  | nil => exact Option.map_id'.symm
  | cons i turns ih =>
      rw [runTurns_cons, ih, getElem?_workers_advance ends, List.count_cons]
      by_cases same : l = i
      · subst same
        rw [if_pos rfl, Option.map_map, beq_self_eq_true, if_pos rfl, Function.iterate_succ]
      · rw [if_neg same, beq_eq_false_iff_ne.2 (Ne.symm same)]
        rfl

/-- Once nothing is pending, every worker has found what it would have found alone. -/
theorem workers_eq_of_settled (ends : EndsAs run outcome) {turns : List ℕ} {p : Progress σ K}
    (settled : (p.runTurns run turns).Settled) :
    (p.runTurns run turns).workers = p.workers.map (Worker.finish outcome) := by
  apply List.ext_getElem?
  intro l
  have stands := getElem?_workers_runTurns ends turns p l
  rw [List.getElem?_map]
  cases found : p.workers[l]? with
  | none => rw [stands, found]; rfl
  | some w =>
      rw [found, Option.map_some] at stands
      have idle := settled _ (List.mem_of_getElem? stands)
      rw [stands, Option.map_some, ← Worker.finish_of_pending_eq_nil idle,
        Worker.finish_iterate_next]

/-! ### Writes -/

/-- The places that turns fill, in the order in which they are filled. -/
def writes (run : ℕ → Step σ (Trial K)) : List ℕ → Progress σ K → List (Write K)
  | [], _ => []
  | i :: turns, p => (p.write? run i).toList ++ writes run turns (p.advance run i)

/-- Only writes change the places. -/
theorem places_advance (p : Progress σ K) (i : ℕ) :
    (p.advance run i).places =
      (p.write? run i).toList.foldl (fun places w => places.set w.place (some w.trial))
        p.places := by
  have turn := turn_advance run p i
  generalize p.advance run i = q at turn
  cases turn with
  | idle nothing =>
      cases found : p.workers[i]? with
      | none => simp [write?, pendingOf, found]
      | some w => simp [write?, pendingOf, found, nothing w found]
  | fill found pending ran => simp [write?, pendingOf, found, pending, ran]
  | stop found pending ran => simp [write?, pendingOf, found, pending, ran]

theorem places_runTurns (turns : List ℕ) (p : Progress σ K) :
    (p.runTurns run turns).places =
      (writes run turns p).foldl (fun places w => places.set w.place (some w.trial))
        p.places := by
  induction turns generalizing p with
  | nil => rfl
  | cons i turns ih => rw [runTurns_cons, ih, places_advance, writes, List.foldl_append]

/-- A turn takes the first write off those that the worker has still to make. -/
theorem filter_write?_append (ends : EndsAs run outcome) (p : Progress σ K) (i l : ℕ) :
    (p.write? run i).toList.filter (·.worker = l) ++
        fills outcome l ((p.advance run i).pendingOf l) =
      fills outcome l (p.pendingOf l) := by
  rw [pendingOf, getElem?_workers_advance ends]
  by_cases same : l = i
  · subst same
    rw [if_pos rfl, Option.map_map]
    cases found : p.workers[l]? with
    | none => simp [write?, pendingOf, found]
    | some w =>
        cases pending : w.pending with
        | nil => simp [write?, pendingOf, found, pending, Worker.next]
        | cons j rest =>
            have ended := ends j p.state
            cases ran : outcome j with
            | ok trial => simp [write?, pendingOf, found, pending, Worker.next, fills, ended, ran]
            | error e => simp [write?, pendingOf, found, pending, Worker.next, fills, ended, ran]
  · have elsewhere : (p.write? run i).toList.filter (·.worker = l) = [] := by
      rw [List.filter_eq_nil_iff]
      intro w mem
      have of_i : w.worker = i := worker_of_write? (Option.mem_toList.1 mem)
      simp [of_i, Ne.symm same]
    rw [if_neg same, elsewhere, List.nil_append, pendingOf]

/-- The writes of a worker and those that it has still to make are the ones that it had
to make at first. -/
theorem filter_writes_append (ends : EndsAs run outcome) (turns : List ℕ) (p : Progress σ K)
    (l : ℕ) :
    (writes run turns p).filter (·.worker = l) ++
        fills outcome l ((p.runTurns run turns).pendingOf l) =
      fills outcome l (p.pendingOf l) := by
  induction turns generalizing p with
  | nil => rfl
  | cons i turns ih =>
      rw [runTurns_cons, writes, List.filter_append, List.append_assoc, ih,
        filter_write?_append ends]

/-- Once nothing is pending, a worker has made all the writes that it had to make. -/
theorem filter_writes_of_settled (ends : EndsAs run outcome) {turns : List ℕ}
    {p : Progress σ K} (settled : (p.runTurns run turns).Settled) (l : ℕ) :
    (writes run turns p).filter (·.worker = l) = fills outcome l (p.pendingOf l) := by
  rw [← filter_writes_append ends turns p l, pendingOf_of_settled settled, fills,
    List.append_nil]

end Progress

end PointPattern
