/-
# Calls that are still owed

A delivery under way owes calls: those that the current listener has left, and those of the
listeners ahead that were not notified before. A session owes what its deliveries owe, the newest
first. Whenever it goes on, it makes the call that is owed first, and if it makes none, nothing was
owed by the delivery that is over. A command that begins a delivery puts the calls of this delivery
before all others. So nothing that is owed is ever forgotten, doubled or put off behind later debts,
however the deliveries are nested, unless a listener fails or the subscriptions change on the way.
-/

import PointPattern.Proofs.Hierarchy.Delivery

namespace PointPattern

variable {ν κ : Type} [DecidableEq κ]

/-! ## Listeners ahead -/

/-- The calls of the listeners that are met, each at the first meeting, without those that were
notified before. -/
def callsAhead (callsOf : Listener κ → List (Call ν κ)) (seen : List (Listener κ))
    (met : List (Subscription (Listener κ))) : List (Call ν κ) :=
  ((met.map (·.listener)).filter (!seen.contains ·)).eraseDups.flatMap callsOf

section CallsAhead

variable {callsOf : Listener κ → List (Call ν κ)} {seen seen' : List (Listener κ)}
variable {read : List (Subscription (Listener κ))} {s : Subscription (Listener κ)}

@[simp] theorem callsAhead_nil (callsOf : Listener κ → List (Call ν κ))
    (seen : List (Listener κ)) : callsAhead callsOf seen [] = [] := rfl

/-- The calls of all who were notified in the end are those of the ones notified before and those
of the ones ahead. -/
theorem flatMap_reverse_mark (callsOf : Listener κ → List (Call ν κ)) (seen : List (Listener κ))
    (met : List (Subscription (Listener κ))) :
    (mark seen (met.map (·.listener))).reverse.flatMap callsOf =
      seen.reverse.flatMap callsOf ++ callsAhead callsOf seen met := by
  rw [reverse_mark, List.flatMap_append, callsAhead]
  simp only [List.contains_eq_mem, decide_not]

/-- Subscriptions that are passed add nothing to what is ahead. -/
theorem Passes.callsAhead_append (passes : Passes callsOf seen read seen')
    (rest : List (Subscription (Listener κ))) :
    callsAhead callsOf seen (read ++ rest) = callsAhead callsOf seen' rest := by
  have all := flatMap_reverse_mark callsOf seen (read ++ rest)
  rw [List.map_append, mark_append, ← passes.seen_eq, flatMap_reverse_mark, passes.calls_eq] at all
  exact (List.append_cancel_left all).symm

/-- A listener that was not notified before makes its calls first. -/
theorem callsAhead_cons (new : s.listener ∉ seen) (rest : List (Subscription (Listener κ))) :
    callsAhead callsOf seen (s :: rest) =
      callsOf s.listener ++ callsAhead callsOf (s.listener :: seen) rest := by
  have all := flatMap_reverse_mark callsOf seen (s :: rest)
  rw [List.map_cons, mark_cons, if_neg new, flatMap_reverse_mark, List.reverse_cons,
    List.flatMap_append, List.flatMap_singleton, List.append_assoc] at all
  exact (List.append_cancel_left all).symm

end CallsAhead

/-! ## Deliveries -/

/-- The calls that a delivery has still to make. -/
def Delivery.owed (callsOf : Listener κ → List (Call ν κ))
    (listenersAt : Node ν → List (Subscription (Listener κ))) (d : Delivery ν κ) :
    List (Call ν κ) :=
  d.calls ++ callsAhead callsOf d.seen (d.queue ++ d.path.flatMap listenersAt)

section Owed

variable {callsOf : Listener κ → List (Call ν κ)}
variable {listenersAt : Node ν → List (Subscription (Listener κ))}
variable {d d' : Delivery ν κ} {call : Call ν κ}

/-- A delivery makes the call that it owes first. -/
theorem Delivery.Advances.owed_eq (advances : d.Advances callsOf listenersAt call d') :
    d.owed callsOf listenersAt = call :: d'.owed callsOf listenersAt := by
  cases advances with
  | again calls_eq => rw [owed, owed, calls_eq, List.cons_append]
  | onward no_calls path_eq queue_eq passes new speaks =>
      rw [owed, owed, no_calls, path_eq, List.flatMap_append, ← List.append_assoc d.queue,
        queue_eq, List.append_assoc, passes.callsAhead_append, List.cons_append,
        callsAhead_cons new, speaks]
      rfl

/-- A delivery that is over owes nothing. -/
theorem Delivery.owed_of_next_eq_none (is_over : d.next callsOf listenersAt = none) :
    d.owed callsOf listenersAt = [] := by
  obtain ⟨no_calls, seen', passes⟩ := passes_of_next_eq_none is_over
  have ahead := passes.callsAhead_append []
  rw [List.append_nil, callsAhead_nil] at ahead
  rw [owed, no_calls, ahead]
  rfl

end Owed

/-! ## Sessions -/

/-- The call that a signal asks for. -/
def Signal.call? : Signal ν κ → Option (Call ν κ)
  | .called call => some call
  | .returned | .subscribed _ | .opened _ | .raised _ => none

/-- The calls that are made in a run, at whatever depth. -/
def callsIn (trace : List (Session ν κ × Signal ν κ)) : List (Call ν κ) :=
  trace.filterMap fun x => x.2.call?

omit [DecidableEq κ] in
theorem callsIn_cons (x : Session ν κ × Signal ν κ) (trace : List (Session ν κ × Signal ν κ)) :
    callsIn (x :: trace) = x.2.call?.toList ++ callsIn trace := by
  rw [callsIn, List.filterMap_cons]
  cases x.2.call? <;> rfl

namespace Session

variable [DecidableEq ν] {s : Session ν κ} {child parent : Node ν}

/-- The calls that the deliveries under way have still to make, those of the newest first. -/
def owed (s : Session ν κ) : List (Call ν κ) :=
  s.pending.flatMap fun d => d.owed (s.callsOf d.child d.parent) s.hierarchy.listenersAt

theorem owed_of_pending_eq_nil (at_rest : s.pending = []) : s.owed = [] := by
  rw [owed, at_rest]
  rfl

theorem owed_of_pending_eq_cons {d : Delivery ν κ} {rest : List (Delivery ν κ)}
    (newest : s.pending = d :: rest) :
    s.owed = d.owed (s.callsOf d.child d.parent) s.hierarchy.listenersAt ++
      rest.flatMap fun d => d.owed (s.callsOf d.child d.parent) s.hierarchy.listenersAt := by
  rw [owed, newest, List.flatMap_cons]

/-- A session that goes on makes the call that is owed first. -/
theorem owed_proceed (s : Session ν κ) :
    s.proceed.2.call?.toList ++ s.proceed.1.owed = s.owed := by
  cases newest : s.pending with
  | nil =>
      rw [proceed, newest]
      rfl
  | cons d rest =>
      rw [owed_of_pending_eq_cons newest]
      cases next : d.next (s.callsOf d.child d.parent) s.hierarchy.listenersAt with
      | none =>
          rw [proceed_of_next_eq_none newest next, Delivery.owed_of_next_eq_none next]
          rfl
      | some found =>
          obtain ⟨call, d'⟩ := found
          have advances := Delivery.advances_of_next_eq_some next
          rw [proceed_of_next_eq_some newest next, advances.owed_eq]
          cases advances <;> rfl

/-- Whether an attachment is accepted: the parent is there, and the child is not. -/
def Accepts (s : Session ν κ) (child parent : Node ν) : Prop :=
  s.hierarchy.contains (s.hierarchy.orRoot parent) = true ∧ s.hierarchy.contains child = false

instance (s : Session ν κ) (child parent : Node ν) : Decidable (s.Accepts child parent) :=
  inferInstanceAs (Decidable (_ ∧ _))

/-- The calls that notify of a child: those of the listeners from the parent upwards. -/
def announcements (s : Session ν κ) (child parent : Node ν) : List (Call ν κ) :=
  callsAhead (s.callsOf child parent) []
    ((parent :: s.hierarchy.ancestorsOf parent).flatMap s.hierarchy.listenersAt)

/-- The calls of the delivery that a command begins, if it begins one. -/
def begun (s : Session ν κ) : Command ν κ → List (Call ν κ)
  | .attach child parent =>
    if s.Accepts child parent then s.announcements child (s.hierarchy.orRoot parent) else []
  | .run pipeline => s.evaluations pipeline s.hierarchy.root
  | .update pipeline result => s.evaluations pipeline result
  | .subscribe _ _ | .unsubscribe _ | .openPipeline _ | .close _ | .finish | .fail _ => []

theorem act_attach_of_not_accepts (refused : ¬s.Accepts child parent) :
    ∃ e, s.act (.attach child parent) = (s, .raised e) := by
  rw [act, attach]
  split
  · exact ⟨_, rfl⟩
  · next accepted =>
      obtain ⟨rfl, present, absent, -⟩ := Hierarchy.attach_eq_ok accepted
      exact absurd ⟨present, absent⟩ refused

/-- A delivery that begins puts its calls before all that were owed. -/
theorem owed_deliver (s : Session ν κ) (d : Delivery ν κ) :
    (s.deliver d).2.call?.toList ++ (s.deliver d).1.owed =
      d.owed (s.callsOf d.child d.parent) s.hierarchy.listenersAt ++ s.owed := by
  rw [deliver, owed_proceed]
  rfl

theorem owed_update (s : Session ν κ) (pipeline : ℕ) (result : Node ν) :
    (s.update pipeline result).2.call?.toList ++ (s.update pipeline result).1.owed =
      s.evaluations pipeline result ++ s.owed := by
  rw [update, owed_deliver, Delivery.owed]
  simp

theorem owed_attach (tree : s.hierarchy.IsTree) (accepted : s.Accepts child parent) :
    (s.act (.attach child parent)).2.call?.toList ++ (s.act (.attach child parent)).1.owed =
      s.announcements child (s.hierarchy.orRoot parent) ++ s.owed := by
  obtain ⟨present, absent⟩ := accepted
  have absent_child := (Hierarchy.not_mem_of_contains_eq_false absent).2
  have parent_mem := tree.orRoot_mem present
  have grown := tree.grows_graft parent_mem absent_child
  rw [act_attach present absent, owed_deliver, announcements,
    ← grown.ancestorsOf_eq tree parent_mem]
  rfl

/-- Every command makes the call that is owed first, where a delivery that it begins is owed before
all others. Only a failure breaks this law, and a change of the subscriptions. -/
theorem owed_act {command : Command ν κ} (tree : s.hierarchy.IsTree)
    (keeps : command.keepsSubscriptions = true) (succeeds : ∀ e, command ≠ .fail e) :
    (s.act command).2.call?.toList ++ (s.act command).1.owed = s.begun command ++ s.owed := by
  cases command with
  | attach child parent =>
      rw [begun]
      split
      · next accepted => exact owed_attach tree accepted
      · next refused =>
          obtain ⟨e, unchanged⟩ := act_attach_of_not_accepts refused
          rw [unchanged]
          rfl
  | run pipeline => exact owed_update s pipeline s.hierarchy.root
  | update pipeline result => exact owed_update s pipeline result
  | finish => exact owed_proceed s
  | fail e => exact absurd rfl (succeeds e)
  | _ => cases keeps

/-- While no delivery is under way, a change of the subscriptions makes no call and begins no
delivery. -/
theorem act_of_at_rest {command : Command ν κ} (at_rest : s.pending = [])
    (changes : command.keepsSubscriptions = false) :
    (s.act command).2.call? = none ∧ (s.act command).1.pending = [] := by
  cases command with
  | subscribe callback node =>
      rw [act, subscribe]
      split <;> exact ⟨rfl, at_rest⟩
  | unsubscribe handle =>
      rw [act, unsubscribe]
      split <;> exact ⟨rfl, at_rest⟩
  | openPipeline evaluators =>
      simp only [act, openPipeline]
      split <;> exact ⟨rfl, at_rest⟩
  | close pipeline =>
      rw [act, close]
      split
      · split <;> exact ⟨rfl, at_rest⟩
      · exact ⟨rfl, at_rest⟩
  | _ => cases changes

end Session

end PointPattern
