/-
# What can be seen of a delivery

The calls of one delivery are told apart from those of the others by the depth at which
they are made: the number of deliveries under way when the call is asked for. A delivery
is over as soon as no more deliveries are under way than before it began, and it has come
to its end if the last signal says so; otherwise a call has failed. What is promised of a
delivery is said here in terms of the states that a run passes through.
-/

import PointPattern.Proofs.Hierarchy.Registry

namespace PointPattern

variable {ν κ : Type}

/-! ## Runs -/

/-- The states and signals that commands lead to. -/
def Session.trace [DecidableEq ν] [DecidableEq κ] (s : Session ν κ) :
    List (Command ν κ) → List (Session ν κ × Signal ν κ)
  | [] => []
  | command :: commands => s.act command :: (s.act command).1.trace commands

/-- Whether a command leaves all subscriptions as they are. -/
def Command.keepsSubscriptions : Command ν κ → Bool
  | .subscribe _ _ | .unsubscribe _ | .openPipeline _ | .close _ => false
  | .attach _ _ | .run _ | .update _ _ | .finish | .fail _ => true

namespace Session

/-- Two sessions with the same subscriptions and pipelines. -/
structure SameListeners (s s' : Session ν κ) : Prop where
  root : s'.hierarchy.root = s.hierarchy.root
  listeners : s'.hierarchy.listeners = s.hierarchy.listeners
  nextHandle : s'.hierarchy.nextHandle = s.hierarchy.nextHandle
  pipelines : s'.pipelines = s.pipelines

variable {s s' : Session ν κ}

theorem SameListeners.refl (s : Session ν κ) : s.SameListeners s := ⟨rfl, rfl, rfl, rfl⟩

variable [DecidableEq ν]

theorem SameListeners.listenersAt_eq (same : s.SameListeners s') (n : Node ν) :
    s'.hierarchy.listenersAt n = s.hierarchy.listenersAt n := by
  rw [Hierarchy.listenersAt, Hierarchy.listenersAt, same.listeners]

variable [DecidableEq κ]

theorem sameListeners_proceed (same : s.SameListeners s') : s.SameListeners s'.proceed.1 where
  root := by rw [hierarchy_proceed, same.root]
  listeners := by rw [hierarchy_proceed, same.listeners]
  nextHandle := by rw [hierarchy_proceed, same.nextHandle]
  pipelines := by rw [pipelines_proceed, same.pipelines]

theorem sameListeners_act {command : Command ν κ} (keeps : command.keepsSubscriptions = true) :
    s.SameListeners (s.act command).1 := by
  cases command with
  | attach child parent =>
      rw [act, attach]
      split
      · exact .refl s
      · next p h' accepted =>
          obtain ⟨rfl, -, -, rfl⟩ := Hierarchy.attach_eq_ok accepted
          exact sameListeners_proceed ⟨rfl, rfl, rfl, rfl⟩
  | run pipeline => exact sameListeners_proceed ⟨rfl, rfl, rfl, rfl⟩
  | update pipeline result => exact sameListeners_proceed ⟨rfl, rfl, rfl, rfl⟩
  | finish => exact sameListeners_proceed (.refl s)
  | fail e => exact ⟨rfl, rfl, rfl, rfl⟩
  | _ => cases keeps

end Session

/-- The call that a delivery makes at a depth, if it is that delivery that makes one. -/
def callAt (depth : ℕ) : Session ν κ × Signal ν κ → Option (Call ν κ)
  | (s, .called call) => if s.pending.length = depth then some call else none
  | _ => none

/-- Whatever is called while a newer delivery is under way, it is not the older one that
calls. -/
theorem callAt_eq_none {s : Session ν κ} {d : Delivery ν κ} {inner rest : List (Delivery ν κ)}
    {signal : Signal ν κ} (pending : s.pending = inner ++ d :: rest)
    (newer : ∀ call, signal = .called call → inner ≠ []) :
    callAt (rest.length + 1) (s, signal) = none := by
  cases signal with
  | called call =>
      have some_newer := List.length_pos_iff.2 (newer call rfl)
      have deeper : s.pending.length ≠ rest.length + 1 := by
        rw [pending, List.length_append, List.length_cons]
        omega
      exact if_neg deeper
  | returned => rfl
  | subscribed handle => rfl
  | opened pipeline => rfl
  | raised e => rfl

theorem callAt_called {s : Session ν κ} {d : Delivery ν κ} {rest : List (Delivery ν κ)}
    (pending : s.pending = d :: rest) (call : Call ν κ) :
    callAt (rest.length + 1) (s, .called call) = some call :=
  if_pos (by rw [pending, List.length_cons])

/-- The calls that are made at a depth. -/
def callsAt (depth : ℕ) (trace : List (Session ν κ × Signal ν κ)) : List (Call ν κ) :=
  trace.filterMap (callAt depth)

theorem callsAt_cons (depth : ℕ) (x : Session ν κ × Signal ν κ)
    (trace : List (Session ν κ × Signal ν κ)) :
    callsAt depth (x :: trace) = (callAt depth x).toList ++ callsAt depth trace := by
  rw [callsAt, List.filterMap_cons]
  cases callAt depth x <;> rfl

/-- The last command of a run has brought a delivery to its end, so that no more than the
given number of deliveries are under way. -/
def EndsAt (older : ℕ) (trace : List (Session ν κ × Signal ν κ)) : Prop :=
  ∃ s, trace.getLast? = some (s, .returned) ∧ s.pending.length = older

/-- A run that goes on while a delivery is under way ends as the rest of it does. -/
theorem endsAt_cons {older : ℕ} {s : Session ν κ} {signal : Signal ν κ}
    {trace : List (Session ν κ × Signal ν κ)} (under_way : older < s.pending.length) :
    EndsAt older ((s, signal) :: trace) ↔ EndsAt older trace := by
  cases trace with
  | nil =>
      constructor
      · rintro ⟨t, last, length_eq⟩
        cases last
        exact absurd length_eq (Nat.ne_of_gt under_way)
      · rintro ⟨t, last, -⟩
        cases last
  | cons y trace => rw [EndsAt, EndsAt, List.getLast?_cons_cons]

/-- A delivery that is no longer under way was the last thing to happen. -/
theorem commands_eq_nil [DecidableEq ν] [DecidableEq κ] {older : ℕ} {s' : Session ν κ}
    {x : Session ν κ × Signal ν κ} {commands : List (Command ν κ)}
    (under_way : ∀ y ∈ (x :: s'.trace commands).dropLast, older < y.1.pending.length)
    (is_over : x.1.pending.length = older) : commands = [] := by
  cases commands with
  | nil => rfl
  | cons command commands =>
      have still := under_way x List.mem_cons_self
      exact absurd is_over (Nat.ne_of_gt still)

theorem under_way_tail {older : ℕ} {x : Session ν κ × Signal ν κ}
    {trace : List (Session ν κ × Signal ν κ)}
    (under_way : ∀ y ∈ (x :: trace).dropLast, older < y.1.pending.length) :
    ∀ y ∈ trace.dropLast, older < y.1.pending.length := by
  cases trace with
  | nil => exact fun y mem => by cases mem
  | cons y trace => exact fun z mem => under_way z (List.mem_cons_of_mem _ mem)

/-! ## Calls -/

/-- The calls of a delivery that has not come to its end: all calls of all listeners but
the latest, and some of the latest. -/
def Partly (callsOf : Listener κ → List (Call ν κ)) (notified : List (Listener κ))
    (calls remaining : List (Call ν κ)) : Prop :=
  ∃ earlier latest part, notified = earlier ++ [latest] ∧ part ≠ [] ∧
    part ++ remaining = callsOf latest ∧ calls = earlier.flatMap callsOf ++ part

namespace Partly

variable {callsOf callsOf' : Listener κ → List (Call ν κ)} {notified : List (Listener κ)}
variable {calls remaining : List (Call ν κ)}

/-- Once the latest listener has no call left, all calls have been made. -/
theorem calls_eq (partly : Partly callsOf notified calls []) :
    calls = notified.flatMap callsOf := by
  obtain ⟨earlier, latest, part, rfl, -, part_eq, rfl⟩ := partly
  rw [List.append_nil] at part_eq
  rw [List.flatMap_append, List.flatMap_singleton, part_eq]

theorem congr (partly : Partly callsOf notified calls remaining)
    (same : ∀ listener ∈ notified, callsOf' listener = callsOf listener) :
    Partly callsOf' notified calls remaining := by
  obtain ⟨earlier, latest, part, rfl, some_part, part_eq, rfl⟩ := partly
  refine ⟨earlier, latest, part, rfl, some_part, ?_, ?_⟩
  · rw [part_eq, same latest (List.mem_append_right _ List.mem_cons_self)]
  · rw [List.flatMap_congr fun listener mem => same listener (List.mem_append_left _ mem)]

end Partly

/-! ## Promises -/

variable [DecidableEq ν] [DecidableEq κ]

/-- What is promised of the delivery of a node on a way upwards: of the listeners that it
notified and of the calls that it made, over the states from its beginning on. -/
structure Notifies (callsOf : Listener κ → List (Call ν κ)) (path : List (Node ν))
    (atFirst : Node ν → List (Subscription (Listener κ))) (states : List (Session ν κ))
    (ended : Prop) (calls : List (Call ν κ)) (notified : List (Listener κ)) : Prop where
  /-- Nobody is notified twice. -/
  nodup : notified.Nodup
  /-- Whoever is notified was subscribed on the way at some time. -/
  met : ∀ listener ∈ notified, ∃ s ∈ states, ∃ n ∈ path, ∃ subscription ∈
    s.hierarchy.listenersAt n, subscription.listener = listener
  /-- A delivery that has come to its end has made all calls of those whom it notified. -/
  calls_of_ended : ended → calls = notified.flatMap callsOf
  /-- Any other one stands, or was stopped, at a call of the listener notified last. -/
  calls_of_not_ended : ¬ ended → ∃ remaining, Partly callsOf notified calls remaining
  /-- Whoever was subscribed on the way all the time has been notified in the end. -/
  covers : ended → ∀ n ∈ path, ∀ subscription,
    (∀ s ∈ states, subscription ∈ s.hierarchy.listenersAt n) → subscription.listener ∈ notified
  /-- While the subscriptions on the way stay what they were, their listeners are notified in
  order, each at the first occurrence. -/
  in_order : (∀ s ∈ states, ∀ n ∈ path, s.hierarchy.listenersAt n = atFirst n) →
    notified <+: ((path.flatMap atFirst).map (·.listener)).eraseDups ∧
      (ended → notified = ((path.flatMap atFirst).map (·.listener)).eraseDups)

/-- What is promised of a delivery over the rest of a run is promised over the run, as long
as the delivery is still under way after the first command. -/
theorem Notifies.cons {callsOf : Listener κ → List (Call ν κ)} {path : List (Node ν)}
    {atFirst : Node ν → List (Subscription (Listener κ))} {older depth : ℕ} {s : Session ν κ}
    {signal : Signal ν κ} {trace : List (Session ν κ × Signal ν κ)}
    {notified : List (Listener κ)} (history : List (Session ν κ)) (calls : List (Call ν κ))
    (still : older < s.pending.length)
    (later : Notifies callsOf path atFirst (history ++ [s] ++ trace.map (·.1))
      (EndsAt older trace) (calls ++ (callAt depth (s, signal)).toList ++ callsAt depth trace)
      notified) :
    Notifies callsOf path atFirst (history ++ ((s, signal) :: trace).map (·.1))
      (EndsAt older ((s, signal) :: trace)) (calls ++ callsAt depth ((s, signal) :: trace))
      notified := by
  rw [List.append_assoc, List.singleton_append, List.append_assoc] at later
  rw [callsAt_cons, List.map_cons]
  simp only [endsAt_cons still]
  exact later

end PointPattern
