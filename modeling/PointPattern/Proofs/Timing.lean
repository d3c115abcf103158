/-
# Where the time went

The time of a section is added to that of its name when the section ends, and by then inner
sections of the same name may have been added already. What is reported is still the sum over all
sections of a name that have ended, each from its own entry to its own end, and the total runs from
the latest start to the last stop after it. Sections that do not overlap, all of them between these
two, take no longer together than the total: what is left is the time in the gaps between them.
Every reading of the clock comes right after queued work was awaited.

Actions are followed one by one. What has been added up so far, and since when the sections are
open that have not ended, is an invariant of the run.
-/

import PointPattern.Proofs.Exact
import PointPattern.Proofs.Timing.Trace
import Mathlib.Algebra.BigOperators.Intervals
import Mathlib.Algebra.Order.BigOperators.Group.Finset
import Mathlib.Data.List.GetD

namespace PointPattern

/-! ## Times -/

open TimerAction

section Times

variable {K : Type} [Field K] {clock : List K} {actions rest : List TimerAction}
variable {action : TimerAction} {entries : List (String × ℕ)} {name : String} {i : ℕ} {time : K}

/-- What the clock shows at an action: the next reading after those that the earlier actions
take. -/
def TimerAction.timeAt (clock : List K) (actions : List TimerAction) (i : ℕ) : K :=
  clock.getD (readings (actions.take i)) 0

/-- The time of a name: of each of its sections that have ended, from its entry to its end. -/
def TimerAction.timeIn (clock : List K) (actions : List TimerAction) (name : String) : K :=
  ∑ b ∈ blocks actions name, (timeAt clock actions b.2 - timeAt clock actions b.1)

/-- The time of the latest start. -/
def TimerAction.StartedAt (clock : List K) (actions : List TimerAction) (time : K) : Prop :=
  ∃ i, LatestBefore actions .start actions.length i ∧ time = timeAt clock actions i

/-- The time from the latest start before the last stop to this stop. -/
def TimerAction.Lasted (clock : List K) (actions : List TimerAction) (time : K) : Prop :=
  ∃ j i, LatestBefore actions .stop actions.length j ∧ LatestBefore actions .start j i ∧
    time = timeAt clock actions j - timeAt clock actions i

theorem timeAt_append (clock : List K) (within : i ≤ actions.length) :
    timeAt clock (actions ++ rest) i = timeAt clock actions i := by
  rw [timeAt, timeAt, List.take_append_of_le_length within]

theorem timeAt_length (clock : List K) (actions : List TimerAction) :
    timeAt clock (actions ++ rest) actions.length = clock.getD (readings actions) 0 := by
  rw [timeAt, List.take_left]

theorem startedAt_concat_start :
    StartedAt clock (actions ++ [.start]) time ↔ time = clock.getD (readings actions) 0 := by
  simp only [StartedAt, latestBefore_concat_self, exists_eq_left, timeAt_length]

theorem startedAt_concat_of_ne (other : action ≠ .start) :
    StartedAt clock (actions ++ [action]) time ↔ StartedAt clock actions time := by
  simp only [StartedAt, latestBefore_concat_of_ne other]
  exact exists_congr fun i => and_congr_right fun latest => by rw [timeAt_append _ latest.1.le]

theorem lasted_concat_stop :
    Lasted clock (actions ++ [.stop]) time ↔
      ∃ began, StartedAt clock actions began ∧
        time = clock.getD (readings actions) 0 - began := by
  simp only [Lasted, latestBefore_concat_self, exists_and_left, exists_eq_left, timeAt_length,
    latestBefore_append_iff _ (le_refl _)]
  constructor
  · rintro ⟨i, latest, rfl⟩
    exact ⟨_, ⟨i, latest, rfl⟩, by rw [timeAt_append _ latest.1.le]⟩
  · rintro ⟨_, ⟨i, latest, rfl⟩, rfl⟩
    exact ⟨i, latest, by rw [timeAt_append _ latest.1.le]⟩

theorem lasted_concat_of_ne (other : action ≠ .stop) :
    Lasted clock (actions ++ [action]) time ↔ Lasted clock actions time := by
  simp only [Lasted, latestBefore_concat_of_ne other]
  refine exists_congr fun j => exists_congr fun i => and_congr_right fun last => ?_
  rw [latestBefore_append_iff _ last.1.le]
  refine and_congr_right fun latest => ?_
  rw [timeAt_append _ last.1.le, timeAt_append _ (latest.1.trans last.1).le]

/-- A start before the last stop is also before the end. -/
theorem TimerAction.Lasted.exists_startedAt (lasted : Lasted clock actions time) :
    ∃ began, StartedAt clock actions began := by
  obtain ⟨j, i, last, latest, -⟩ := lasted
  obtain ⟨i', latest'⟩ := exists_latestBefore latest.2.1 (latest.1.trans last.1)
  exact ⟨_, i', latest', rfl⟩

/-- The sections that are open, each with the time of its entry. -/
def TimerAction.since (clock : List K) (actions : List TimerAction)
    (entries : List (String × ℕ)) : List (String × K) :=
  entries.map fun entry => (entry.1, timeAt clock actions entry.2)

/-- Sections that are open stay open since the same time. -/
theorem TimerAction.Opened.since_append (opened : Opened actions entries) (clock : List K) :
    since clock (actions ++ rest) entries = since clock actions entries := by
  refine List.map_congr_left fun entry mem => ?_
  rw [timeAt_append _ (opened.lt_length mem).le]

/-- Sections that have ended take the same time in a longer list of actions. -/
theorem sum_blocks_append (clock : List K) (actions rest : List TimerAction) (name : String) :
    ∑ b ∈ blocks actions name,
        (timeAt clock (actions ++ rest) b.2 - timeAt clock (actions ++ rest) b.1) =
      timeIn clock actions name := by
  refine Finset.sum_congr rfl fun b mem => ?_
  have block := mem_blocks_iff.1 mem
  rw [timeAt_append _ block.lt_length.le, timeAt_append _ (block.2.2.1.trans block.lt_length).le]

theorem timeIn_concat_of_eq (same : blocks (actions ++ [action]) name = blocks actions name) :
    timeIn clock (actions ++ [action]) name = timeIn clock actions name := by
  rw [timeIn, same, sum_blocks_append]

/-- The end of a section adds the time since its entry. -/
theorem timeIn_concat_leave (opened : Opened actions ((name, i) :: entries)) :
    timeIn clock (actions ++ [.leave]) name =
      timeIn clock actions name + (clock.getD (readings actions) 0 - timeAt clock actions i) := by
  have fresh : (i, actions.length) ∉ blocks actions name := fun mem =>
    (mem_blocks_iff.1 mem).lt_length.false
  have entered : i < actions.length := opened.lt_length List.mem_cons_self
  rw [timeIn, blocks_concat_leave opened, Finset.sum_insert fresh, sum_blocks_append, add_comm,
    timeAt_length, timeAt_append _ entered.le]

end Times

/-! ## Times by name -/

section Tallies

variable {K : Type} [Field K] {clock : List K} {actions : List TimerAction}
variable {action : TimerAction} {entries : List (String × ℕ)} {name : String} {i : ℕ}
variable {sections : List (String × K)}

/-- Every name that has a section that has ended is there once, with its time, and no other. -/
def TimerAction.Tally (clock : List K) (actions : List TimerAction)
    (sections : List (String × K)) : Prop :=
  ∃ names : List String, names.Nodup ∧ (∀ name, name ∈ names ↔ (blocks actions name).Nonempty) ∧
    sections = names.map fun name => (name, timeIn clock actions name)

/-- The times stay as they are if no section ends. -/
theorem TimerAction.Tally.concat (tally : Tally clock actions sections)
    (opened : Opened actions entries) (stays : action ≠ .leave) :
    Tally clock (actions ++ [action]) sections := by
  obtain ⟨names, distinct, ended, times⟩ := tally
  refine ⟨names, distinct, fun name => ?_, times.trans (List.map_congr_left fun name mem => ?_)⟩
  · rw [blocks_concat_of_ne opened stays, ended]
  · rw [timeIn_concat_of_eq (blocks_concat_of_ne opened stays name)]

variable [Scalar K]

/-- Adds to the time of a name that has a time already. -/
theorem Timer.addSection_of_mem {names : List String} {name : String} {time : String → K}
    (mem : name ∈ names) (distinct : names.Nodup) (began ended : K) :
    addSection name began ended (names.map fun other => (other, time other)) =
      names.map fun other =>
        (other, if other = name then time other + (ended - began) else time other) := by
  induction names with
  | nil => cases mem
  | cons first rest ih =>
      obtain ⟨fresh, distinct⟩ := List.nodup_cons.1 distinct
      rw [List.map_cons, List.map_cons, addSection]
      by_cases same : first = name
      · subst same
        rw [if_pos rfl, if_pos rfl, add_sub_assoc]
        refine congrArg _ (List.map_congr_left fun other later => ?_)
        have differs : other ≠ first := fun same => fresh (same ▸ later)
        rw [if_neg differs]
      · have later : name ∈ rest := (List.mem_cons.1 mem).resolve_left (Ne.symm same)
        rw [if_neg same, if_neg same, ih later distinct]

variable [LinearOrder K] [Scalar.Exact K]

/-- Adds the time of a name that has none. -/
theorem Timer.addSection_of_not_mem {sections : List (String × K)} {name : String}
    (fresh : name ∉ sections.map Prod.fst) (began ended : K) :
    addSection name began ended sections = sections ++ [(name, ended - began)] := by
  induction sections with
  | nil => rw [addSection, Scalar.zero_eq, zero_add, List.nil_append]
  | cons first rest ih =>
      rw [List.map_cons, List.mem_cons, not_or] at fresh
      rw [addSection, if_neg (Ne.symm fresh.1), ih fresh.2, List.cons_append]

/-- The times after a section has ended. -/
theorem TimerAction.Tally.leave (tally : Tally clock actions sections)
    (opened : Opened actions ((name, i) :: entries)) :
    Tally clock (actions ++ [.leave])
      (Timer.addSection name (timeAt clock actions i) (clock.getD (readings actions) 0)
        sections) := by
  obtain ⟨names, distinct, ended, times⟩ := tally
  have ended_now : (blocks (actions ++ [.leave]) name).Nonempty := by
    rw [blocks_concat_leave opened]
    exact Finset.insert_nonempty _ _
  have ended_before {other : String} (differs : other ≠ name) :
      other ∈ names ↔ (blocks (actions ++ [.leave]) other).Nonempty := by
    rw [blocks_concat_leave_of_ne opened differs, ended]
  have kept {other : String} (differs : other ≠ name) :
      timeIn clock (actions ++ [.leave]) other = timeIn clock actions other :=
    timeIn_concat_of_eq (blocks_concat_leave_of_ne opened differs)
  by_cases mem : name ∈ names
  · refine ⟨names, distinct, fun other => ?_, ?_⟩
    · rcases eq_or_ne other name with rfl | differs
      · exact iff_of_true mem ended_now
      · exact ended_before differs
    · rw [times, Timer.addSection_of_mem mem distinct]
      refine List.map_congr_left fun other _ => ?_
      split_ifs with same
      · rw [same, timeIn_concat_leave opened]
      · rw [kept same]
  · refine ⟨names ++ [name], ?_, fun other => ?_, ?_⟩
    · rw [← List.concat_eq_append]
      exact distinct.concat mem
    · rw [List.mem_append, List.mem_singleton]
      rcases eq_or_ne other name with rfl | differs
      · exact iff_of_true (.inr rfl) ended_now
      · rw [or_iff_left differs, ended_before differs]
    · have none_before : timeIn clock actions name = 0 := by
        rw [timeIn, Finset.not_nonempty_iff_eq_empty.1 ((ended name).not.1 mem),
          Finset.sum_empty]
      have fresh : name ∉ sections.map Prod.fst := by
        rw [times, List.map_map]
        simpa using mem
      rw [Timer.addSection_of_not_mem fresh, times, List.map_append, List.map_singleton,
        timeIn_concat_leave opened, none_before, zero_add]
      refine congrArg (· ++ _) (List.map_congr_left fun other later => ?_)
      rw [kept fun same => mem (same ▸ later)]

end Tallies

/-! ## A stopwatch along its actions -/

section Stopwatches

variable {K : Type} [Field K] {clock : List K} {actions : List TimerAction}
variable {action : TimerAction} {w : Stopwatch K}

/-- What a stopwatch knows after some actions. -/
structure Stopwatch.Accounts (clock : List K) (actions : List TimerAction)
    (w : Stopwatch K) : Prop where
  clock_eq : w.clock = clock.drop (readings actions)
  log_eq : w.log =
    (List.range (readings actions)).flatMap fun n => boundary w.awaits (clock.getD n 0)
  opened : ∃ entries, Opened actions entries ∧ w.opened = since clock actions entries
  started : ∀ time, w.timer.started = some time ↔ StartedAt clock actions time
  total : ∀ time, w.timer.total = some time ↔ Lasted clock actions time
  sections : Tally clock actions w.timer.sections

theorem Stopwatch.accounts_nil (clock : List K) (awaits : Bool) :
    ({ clock, awaits } : Stopwatch K).Accounts clock [] where
  clock_eq := rfl
  log_eq := rfl
  opened := ⟨[], .none rfl, rfl⟩
  started time := by simp [StartedAt, LatestBefore]
  total time := by simp [Lasted, LatestBefore]
  sections := ⟨[], List.nodup_nil, fun name => by simp [blocks], rfl⟩

theorem Stopwatch.Accounts.started_eq_none_iff (accounts : w.Accounts clock actions) :
    w.timer.started = none ↔ .start ∉ actions := by
  constructor
  · intro fresh started
    obtain ⟨i, taken⟩ := List.mem_iff_getElem?.1 started
    have inside := (List.getElem?_eq_some_iff.1 taken).1
    obtain ⟨j, latest⟩ := exists_latestBefore taken inside
    rw [(accounts.started _).2 ⟨j, latest, rfl⟩] at fresh
    cases fresh
  · intro fresh
    rw [Option.eq_none_iff_forall_ne_some]
    intro time began
    obtain ⟨i, latest, -⟩ := (accounts.started time).1 began
    exact fresh (List.mem_of_getElem? latest.2.1)

theorem Stopwatch.Accounts.opened_concat (accounts : w.Accounts clock actions)
    (plain : Balanced [action]) :
    ∃ entries, Opened (actions ++ [action]) entries ∧
      w.opened = since clock (actions ++ [action]) entries := by
  obtain ⟨entries, opened, times⟩ := accounts.opened
  exact ⟨entries, opened.append plain, times.trans (opened.since_append clock).symm⟩

theorem Stopwatch.Accounts.started_concat (accounts : w.Accounts clock actions)
    (other : action ≠ .start) (time : K) :
    w.timer.started = some time ↔ StartedAt clock (actions ++ [action]) time := by
  rw [startedAt_concat_of_ne other, accounts.started]

theorem Stopwatch.Accounts.total_concat (accounts : w.Accounts clock actions)
    (other : action ≠ .stop) (time : K) :
    w.timer.total = some time ↔ Lasted clock (actions ++ [action]) time := by
  rw [lasted_concat_of_ne other, accounts.total]

theorem Stopwatch.Accounts.sections_concat (accounts : w.Accounts clock actions)
    (stays : action ≠ .leave) : Tally clock (actions ++ [action]) w.timer.sections := by
  obtain ⟨entries, opened, -⟩ := accounts.opened
  exact accounts.sections.concat opened stays

variable [Scalar K]

theorem Stopwatch.Accounts.clock_read (accounts : w.Accounts clock actions)
    (reads : action = .stop → .start ∈ actions) :
    w.read.2.clock = clock.drop (readings (actions ++ [action])) := by
  rw [readings_concat_of_reads reads, Stopwatch.read, accounts.clock_eq, List.drop_drop]

/-- A timer that was not started is not stopped. -/
theorem Stopwatch.act_stop_of_none (fresh : w.timer.started = none) :
    w.act .stop = (.error (.timer .stopBeforeStart), w) := by
  simp only [act, Timer.stop, fresh]

theorem Stopwatch.act_stop_of_some {began : K} (started : w.timer.started = some began) :
    w.act .stop =
      (.ok (), { w.read.2 with timer := { w.timer with total := some (w.read.1 - began) } }) := by
  simp only [act, Timer.stop, started]

theorem Stopwatch.act_leave {name : String} {began : K} {others : List (String × K)}
    (opened : w.opened = (name, began) :: others) :
    w.act .leave =
      (.ok (), { w.read.2 with
        timer := w.timer.close name began w.read.1, opened := others }) := by
  simp only [act, opened]

/-- The stopwatch after some actions. -/
def Stopwatch.run (w : Stopwatch K) (actions : List TimerAction) : Stopwatch K :=
  actions.foldl (fun w action => (w.act action).2) w

theorem Stopwatch.awaits_act (w : Stopwatch K) (action : TimerAction) :
    (w.act action).2.awaits = w.awaits := by
  cases action with
  | start | enter name => rfl
  | stop =>
      cases started : w.timer.started with
      | none => rw [act_stop_of_none started]
      | some began =>
          rw [act_stop_of_some started]
          rfl
  | leave =>
      cases opened : w.opened with
      | nil => simp only [Stopwatch.act, opened]
      | cons innermost others =>
          rw [Stopwatch.act_leave opened]
          rfl

theorem Stopwatch.awaits_run (w : Stopwatch K) (actions : List TimerAction) :
    (w.run actions).awaits = w.awaits := by
  induction actions generalizing w with
  | nil => rfl
  | cons action rest ih => exact (ih _).trans (w.awaits_act action)

variable [LinearOrder K] [Scalar.Exact K]

namespace Stopwatch

/-- The next reading is the one after those that were taken. -/
theorem Accounts.read_fst (accounts : w.Accounts clock actions) :
    w.read.1 = clock.getD (readings actions) 0 := by
  rw [read, accounts.clock_eq, Scalar.zero_eq, List.headD_eq_head?_getD, List.head?_drop,
    List.getD_eq_getElem?_getD]

theorem Accounts.log_read (accounts : w.Accounts clock actions)
    (reads : action = .stop → .start ∈ actions) :
    w.read.2.log = (List.range (readings (actions ++ [action]))).flatMap fun n =>
      boundary w.awaits (clock.getD n 0) := by
  have reading := accounts.read_fst
  rw [read] at reading ⊢
  rw [readings_concat_of_reads reads, List.range_succ, List.flatMap_append,
    List.flatMap_singleton, ← accounts.log_eq]
  exact congrArg (fun x => w.log ++ boundary w.awaits x) reading

theorem Accounts.act_start (accounts : w.Accounts clock actions) :
    (w.act .start).2.Accounts clock (actions ++ [.start]) where
  clock_eq := accounts.clock_read nofun
  log_eq := accounts.log_read nofun
  opened := accounts.opened_concat rfl
  started time := by
    rw [startedAt_concat_start, ← accounts.read_fst]
    exact Option.some_inj.trans eq_comm
  total := accounts.total_concat nofun
  sections := accounts.sections_concat nofun

theorem Accounts.act_enter (accounts : w.Accounts clock actions) (name : String) :
    (w.act (.enter name)).2.Accounts clock (actions ++ [.enter name]) where
  clock_eq := accounts.clock_read nofun
  log_eq := accounts.log_read nofun
  opened := by
    obtain ⟨entries, opened, times⟩ := accounts.opened
    refine ⟨_, opened.enter name, ?_⟩
    rw [since, List.map_cons, ← since, opened.since_append, ← times, timeAt_length,
      ← accounts.read_fst]
    rfl
  started := accounts.started_concat nofun
  total := accounts.total_concat nofun
  sections := accounts.sections_concat nofun

theorem Accounts.act_stop (accounts : w.Accounts clock actions) :
    (w.act .stop).2.Accounts clock (actions ++ [.stop]) := by
  cases started : w.timer.started with
  | none =>
      -- The stop is refused and leaves everything as it was.
      have fresh := accounts.started_eq_none_iff.1 started
      have unread : readings (actions ++ [.stop]) = readings actions := by
        rw [readings_concat, if_pos ⟨rfl, fresh⟩, Nat.add_zero]
      have never (began : K) : ¬ StartedAt clock actions began := fun at_time => by
        rw [(accounts.started began).2 at_time] at started
        cases started
      rw [act_stop_of_none started]
      refine ⟨unread ▸ accounts.clock_eq, unread ▸ accounts.log_eq, accounts.opened_concat rfl,
        accounts.started_concat nofun, fun time => ?_, accounts.sections_concat nofun⟩
      rw [lasted_concat_stop, accounts.total]
      constructor
      · intro lasted
        obtain ⟨began, at_time⟩ := lasted.exists_startedAt
        exact absurd at_time (never began)
      · rintro ⟨began, at_time, -⟩
        exact absurd at_time (never began)
  | some began =>
      have reads : TimerAction.start ∈ actions := by
        by_contra fresh
        rw [accounts.started_eq_none_iff.2 fresh] at started
        cases started
      rw [act_stop_of_some started]
      refine ⟨accounts.clock_read fun _ => reads, accounts.log_read fun _ => reads,
        accounts.opened_concat rfl, accounts.started_concat nofun, fun time => ?_,
        accounts.sections_concat nofun⟩
      rw [lasted_concat_stop, accounts.read_fst]
      simp only [← accounts.started, started, Option.some.injEq, exists_eq_left']
      exact eq_comm

theorem Accounts.act_leave (accounts : w.Accounts clock actions)
    (nested : WellNested (actions ++ [.leave])) :
    (w.act .leave).2.Accounts clock (actions ++ [.leave]) := by
  obtain ⟨entries, opened, times⟩ := accounts.opened
  cases entries with
  | nil => exact absurd nested opened.not_wellNested_leave
  | cons innermost others =>
      obtain ⟨name, i⟩ := innermost
      rw [since, List.map_cons, ← since] at times
      rw [Stopwatch.act_leave times]
      refine ⟨accounts.clock_read nofun, accounts.log_read nofun, ⟨others, opened.leave, ?_⟩,
        accounts.started_concat nofun, accounts.total_concat nofun, ?_⟩
      · exact (List.cons.inj (opened.since_append clock)).2.symm
      · rw [accounts.read_fst]
        exact accounts.sections.leave opened

/-- Every action keeps the account. -/
theorem Accounts.act (accounts : w.Accounts clock actions)
    (nested : WellNested (actions ++ [action])) :
    (w.act action).2.Accounts clock (actions ++ [action]) := by
  cases action with
  | start => exact accounts.act_start
  | stop => exact accounts.act_stop
  | enter name => exact accounts.act_enter name
  | leave => exact accounts.act_leave nested

theorem accounts_run (clock : List K) (awaits : Bool) (nested : WellNested actions) :
    (({ clock, awaits } : Stopwatch K).run actions).Accounts clock actions := by
  induction actions using List.reverseRecOn with
  | nil => exact accounts_nil clock awaits
  | append_singleton actions action ih =>
      rw [run, List.foldl_append, List.foldl_cons, List.foldl_nil, ← run]
      exact (ih nested.of_append).act nested

end Stopwatch

end Stopwatches

/-! ## Times that add up -/

section Bounds

variable {K : Type} [Field K] [LinearOrder K] {clock : List K}
variable {actions : List TimerAction} {name name' : String} {i j : ℕ}

theorem timeAt_le (sorted : clock.Pairwise (· ≤ ·)) (le : i ≤ j)
    (inside : readings (actions.take j) < clock.length) :
    timeAt clock actions i ≤ timeAt clock actions j := by
  have earlier := readings_take_le actions le
  rw [timeAt, timeAt, List.getD_eq_getElem _ _ inside,
    List.getD_eq_getElem _ _ (earlier.trans_lt inside)]
  rcases earlier.lt_or_eq with lt | same
  · exact List.pairwise_iff_getElem.1 sorted _ _ _ _ lt
  · simp only [same, le_refl]

theorem timeAt_le_of_mem_blocks (sorted : clock.Pairwise (· ≤ ·))
    (enough : readings actions ≤ clock.length) {b : ℕ × ℕ} (mem : b ∈ blocks actions name) :
    timeAt clock actions b.1 ≤ timeAt clock actions b.2 := by
  obtain ⟨-, left, lt, -⟩ := mem_blocks_iff.1 mem
  exact timeAt_le sorted lt.le ((readings_take_lt left nofun).trans_le enough)

/-- A section has one name. -/
theorem disjoint_blocks (differ : name ≠ name') :
    Disjoint (blocks actions name) (blocks actions name') := by
  rw [Finset.disjoint_left]
  intro b mem mem'
  have entered := (mem_blocks_iff.1 mem).1.symm.trans (mem_blocks_iff.1 mem').1
  rw [Option.some.injEq, TimerAction.enter.injEq] at entered
  exact differ entered

variable [IsStrictOrderedRing K]

/-- Intervals that do not overlap are together no longer than one that they lie in: a value that
grows from place to place grows by the sum of its steps. -/
theorem sum_sub_le {f : ℕ → K} {intervals : Finset (ℕ × ℕ)} (le : i ≤ j)
    (grows : ∀ k, i ≤ k → k < j → f k ≤ f (k + 1))
    (within : ∀ b ∈ intervals, i ≤ b.1 ∧ b.1 ≤ b.2 ∧ b.2 ≤ j)
    (apart : ∀ b ∈ intervals, ∀ b' ∈ intervals, b ≠ b' → b.2 ≤ b'.1 ∨ b'.2 ≤ b.1) :
    ∑ b ∈ intervals, (f b.2 - f b.1) ≤ f j - f i := by
  have disjoint : (intervals : Set (ℕ × ℕ)).PairwiseDisjoint fun b => Finset.Ico b.1 b.2 := by
    intro b mem b' mem' differs
    rw [Function.onFun, Finset.disjoint_left]
    intro k inside inside'
    rw [Finset.mem_Ico] at inside inside'
    rcases apart b mem b' mem' differs with before | after <;> omega
  have covered : intervals.biUnion (fun b => Finset.Ico b.1 b.2) ⊆ Finset.Ico i j := by
    intro k mem
    obtain ⟨b, mem, inside⟩ := Finset.mem_biUnion.1 mem
    have := within b mem
    rw [Finset.mem_Ico] at inside ⊢
    omega
  calc ∑ b ∈ intervals, (f b.2 - f b.1)
      = ∑ b ∈ intervals, ∑ k ∈ Finset.Ico b.1 b.2, (f (k + 1) - f k) :=
        Finset.sum_congr rfl fun b mem => (Finset.sum_Ico_sub f (within b mem).2.1).symm
    _ = ∑ k ∈ intervals.biUnion fun b => Finset.Ico b.1 b.2, (f (k + 1) - f k) :=
        (Finset.sum_biUnion disjoint).symm
    _ ≤ ∑ k ∈ Finset.Ico i j, (f (k + 1) - f k) := by
        refine Finset.sum_le_sum_of_subset_of_nonneg covered fun k mem _ => ?_
        rw [Finset.mem_Ico] at mem
        exact sub_nonneg.2 (grows k mem.1 mem.2)
    _ = f j - f i := Finset.sum_Ico_sub f le

/-- The times of different names, none of whose sections overlap, add up to no more than the time
between two places that all of them lie between. -/
theorem sum_timeIn_le (sorted : clock.Pairwise (· ≤ ·)) (le : i ≤ j)
    (inside : readings (actions.take j) < clock.length) {names : List String}
    (distinct : names.Nodup)
    (within : ∀ name, ∀ b ∈ blocks actions name, i < b.1 ∧ b.2 < j)
    (apart : ∀ name name', ∀ b ∈ blocks actions name, ∀ b' ∈ blocks actions name', b ≠ b' →
      b.2 < b'.1 ∨ b'.2 < b.1) :
    (names.map (timeIn clock actions)).sum ≤ timeAt clock actions j - timeAt clock actions i := by
  rw [← List.sum_toFinset _ distinct]
  unfold timeIn
  rw [← Finset.sum_biUnion fun name _ name' _ differ => disjoint_blocks differ]
  refine sum_sub_le le (fun k _ lt => ?_) (fun b mem => ?_) fun b mem b' mem' differ => ?_
  · exact timeAt_le sorted k.le_succ ((readings_take_le actions lt).trans_lt inside)
  · obtain ⟨name, -, mem⟩ := Finset.mem_biUnion.1 mem
    have placed := within name b mem
    exact ⟨placed.1.le, (mem_blocks_iff.1 mem).2.2.1.le, placed.2.le⟩
  · obtain ⟨name, -, mem⟩ := Finset.mem_biUnion.1 mem
    obtain ⟨name', -, mem'⟩ := Finset.mem_biUnion.1 mem'
    exact (apart name name' b mem b' mem' differ).imp le_of_lt le_of_lt

end Bounds

/-! ## What is reported -/

section Report

variable {K : Type}

/-- The sections are reported after the total if none of them bears its name. -/
theorem Timer.result_of_total {t : Timer K} {total : K} (stopped : t.total = some total)
    (fresh : totalName ∉ t.sections.map Prod.fst) :
    t.result = .ok ((totalName, total) :: t.sections) := by
  have others : ∀ entry ∈ t.sections, entry.1 ≠ totalName := fun entry mem same =>
    fresh (List.mem_map.2 ⟨entry, mem, same⟩)
  have absent : t.sections.lookup totalName = none := by
    rw [List.lookup_eq_none_iff]
    exact fun entry mem => bne_iff_ne.2 (others entry mem).symm
  rw [Timer.result, stopped]
  dsimp only
  rw [absent, Option.getD_none,
    List.filter_eq_self.2 fun entry mem => decide_eq_true (others entry mem)]

variable [Field K] [LinearOrder K] [Scalar K] [Scalar.Exact K]

/-- Take any actions that leave only sections that they have entered, none of them under the name
of the total, and enough readings of a clock that does not go back. Queued work is awaited exactly
once before every reading, if it is awaited at all. A stop before the first start is refused and
leaves everything as it was, and before a stop after a start there is no result. Otherwise the
result gives, from the latest start to the last stop, the total, and for every name that has a
section that has ended, and no other, the sum over these sections, which is not negative. If no two
of them overlap and all lie between this start and this stop, all sums together are not greater
than the total. -/
theorem stopwatch_accounts [IsStrictOrderedRing K] (clock : List K) (awaits : Bool)
    (actions : List TimerAction) (nested : WellNested actions)
    (named : .enter Timer.totalName ∉ actions) (sorted : clock.Pairwise (· ≤ ·))
    (enough : readings actions ≤ clock.length) :
    let w := ({ clock, awaits } : Stopwatch K).run actions
    (w.log = (List.range (readings actions)).flatMap fun n =>
      if awaits then [.awaited, .read (clock.getD n 0)] else [.read (clock.getD n 0)]) ∧
    (.start ∉ actions → w.act .stop = (.error (.timer .stopBeforeStart), w)) ∧
    ((∀ i j : ℕ, i < j → actions[i]? = some .start → actions[j]? ≠ some .stop) →
      w.timer.result = .error (.timer .resultBeforeStop)) ∧
    (∀ name, 0 ≤ timeIn clock actions name) ∧
    ∀ i j, LatestBefore actions .stop actions.length j → LatestBefore actions .start j i →
      ∃ names : List String, names.Nodup ∧
        (∀ name, name ∈ names ↔ (blocks actions name).Nonempty) ∧
        w.timer.result = .ok
          ((Timer.totalName, timeAt clock actions j - timeAt clock actions i) ::
            names.map fun name => (name, timeIn clock actions name)) ∧
        ((∀ name, ∀ b ∈ blocks actions name, i < b.1 ∧ b.2 < j) →
          (∀ name name', ∀ b ∈ blocks actions name, ∀ b' ∈ blocks actions name', b ≠ b' →
            b.2 < b'.1 ∨ b'.2 < b.1) →
          (names.map (timeIn clock actions)).sum ≤
            timeAt clock actions j - timeAt clock actions i) := by
  intro w
  have accounts : w.Accounts clock actions := Stopwatch.accounts_run clock awaits nested
  have awaits_eq : w.awaits = awaits := Stopwatch.awaits_run _ actions
  refine ⟨awaits_eq ▸ accounts.log_eq, fun fresh => ?_, fun never => ?_, fun name => ?_,
    fun i j last latest => ?_⟩
  · exact Stopwatch.act_stop_of_none (accounts.started_eq_none_iff.2 fresh)
  · cases lasted : w.timer.total with
    | none => rw [Timer.result, lasted]
    | some total =>
        obtain ⟨j, i, last, latest, -⟩ := (accounts.total total).1 lasted
        exact absurd last.2.1 (never i j latest.1 latest.2.1)
  · exact Finset.sum_nonneg fun b mem => sub_nonneg.2 (timeAt_le_of_mem_blocks sorted enough mem)
  · obtain ⟨names, distinct, ended, times⟩ := accounts.sections
    have total := (accounts.total _).2 ⟨j, i, last, latest, rfl⟩
    have inside : readings (actions.take j) < clock.length := by
      refine (readings_take_lt last.2.1 fun _ => ?_).trans_le enough
      exact List.mem_of_getElem? ((List.getElem?_take_of_lt latest.1).trans latest.2.1)
    have fresh : Timer.totalName ∉ w.timer.sections.map Prod.fst := by
      rw [times, List.map_map, List.mem_map]
      rintro ⟨name, mem, (same : name = Timer.totalName)⟩
      obtain ⟨b, block⟩ := (ended name).1 mem
      rw [same] at block
      exact named (List.mem_of_getElem? (mem_blocks_iff.1 block).1)
    refine ⟨names, distinct, ended, ?_, sum_timeIn_le sorted latest.1.le inside distinct⟩
    rw [Timer.result_of_total total fresh, times]

/-- A section inside one of the same name is counted in both; and three sections one after the
other, two of them of one name, take no longer than the total. -/
theorem stopwatch_accounts_eightReadings :
    let clock : List ℚ := [0, 1, 3, 4, 6, 7, 9, 10]
    let inside : List TimerAction :=
      [.start, .enter "extent", .enter "extent", .leave, .leave, .enter "trials", .leave, .stop]
    let apart : List TimerAction :=
      [.start, .enter "extent", .leave, .enter "trials", .leave, .enter "extent", .leave, .stop]
    (∃ names : List String, "extent" ∈ names ∧
      (({ clock } : Stopwatch ℚ).run inside).timer.result = .ok
        ((Timer.totalName, 10) :: names.map fun name => (name, timeIn clock inside name)) ∧
      timeIn clock inside "extent" = (6 - 1) + (4 - 3)) ∧
      ∃ names : List String, (({ clock } : Stopwatch ℚ).run apart).timer.result = .ok
          ((Timer.totalName, 10) :: names.map fun name => (name, timeIn clock apart name)) ∧
        (names.map (timeIn clock apart)).sum ≤ 10 := by
  intro clock inside apart
  have sorted : clock.Pairwise (· ≤ ·) := by decide +kernel
  constructor
  · obtain ⟨names, -, ended, reported, -⟩ :=
      (stopwatch_accounts clock true inside (by decide) (by decide) sorted (by decide)).2.2.2.2
        0 7 (by decide) (by decide)
    have total : timeAt clock inside 7 - timeAt clock inside 0 = 10 := by decide +kernel
    rw [total] at reported
    exact ⟨names, (ended "extent").2 ⟨(1, 4), by decide⟩, reported, by decide +kernel⟩
  · obtain ⟨names, -, -, reported, bounded⟩ :=
      (stopwatch_accounts clock true apart (by decide) (by decide) sorted (by decide)).2.2.2.2
        0 7 (by decide) (by decide)
    have total : timeAt clock apart 7 - timeAt clock apart 0 = 10 := by decide +kernel
    rw [total] at reported bounded
    have known : ∀ name, ∀ b ∈ blocks apart name, name = "extent" ∨ name = "trials" := by
      intro name b mem
      have entered := List.mem_of_getElem? (mem_blocks_iff.1 mem).1
      simpa [apart, or_comm, or_assoc] using entered
    refine ⟨names, reported, bounded (fun name b mem => ?_) fun name name' b mem b' mem' => ?_⟩
    · rcases known name b mem with rfl | rfl <;> revert b <;> decide
    · rcases known name b mem with rfl | rfl <;> rcases known name' b' mem' with rfl | rfl <;>
        revert b' <;> revert b <;> decide

end Report

end PointPattern
