/-
# The next call of a delivery

A delivery meets subscriptions one after the other and notifies the listeners that it has
not notified before. Whatever part of the way it has gone, the listeners that it has
notified are those that it has met, each at the first meeting. A listener that has nothing
to call is notified in silence; one that has makes its first call at once and the others
later.
-/

import PointPattern.Hierarchy.Session
import Mathlib.Data.List.Nodup

namespace PointPattern

variable {ν κ : Type}

/-! ## Meeting listeners -/

section Mark

variable {α : Type} [DecidableEq α]

/-- The listeners that were notified, the latest first, once some more were met. -/
def mark (seen met : List α) : List α :=
  met.foldl (fun seen x => if x ∈ seen then seen else x :: seen) seen

theorem mark_append (seen met met' : List α) :
    mark seen (met ++ met') = mark (mark seen met) met' := List.foldl_append

theorem mark_cons (seen met : List α) (x : α) :
    mark seen (x :: met) = mark (if x ∈ seen then seen else x :: seen) met := rfl

theorem mem_mark {seen met : List α} {x : α} : x ∈ mark seen met ↔ x ∈ seen ∨ x ∈ met := by
  induction met generalizing seen with
  | nil => simp [mark]
  | cons y met ih =>
      rw [mark_cons, ih, List.mem_cons]
      split
      · next old =>
          constructor
          · rintro (before | later)
            · exact .inl before
            · exact .inr (.inr later)
          · rintro (before | rfl | later)
            · exact .inl before
            · exact .inl old
            · exact .inr later
      · rw [List.mem_cons, or_assoc, or_left_comm]

theorem nodup_mark {seen met : List α} (nodup : seen.Nodup) : (mark seen met).Nodup := by
  induction met generalizing seen with
  | nil => exact nodup
  | cons y met ih =>
      rw [mark_cons]
      split
      · exact ih nodup
      · next new => exact ih (List.nodup_cons.2 ⟨new, nodup⟩)

/-- Those who were notified are those who were met, each at the first occurrence. -/
theorem reverse_mark (seen met : List α) :
    (mark seen met).reverse = seen.reverse ++ (met.filter (· ∉ seen)).eraseDups := by
  induction met generalizing seen with
  | nil => simp [mark]
  | cons y met ih =>
      rw [mark_cons, ih, List.filter_cons]
      by_cases old : y ∈ seen
      · simp [old]
      · have others : (met.filter (· ∉ seen)).filter (fun x => !x == y) =
            met.filter (· ∉ y :: seen) := by
          rw [List.filter_filter]
          apply List.filter_congr
          intro x _
          by_cases same : x = y <;> simp [same]
        simp only [old, if_false, not_false_eq_true, decide_true, if_true, List.reverse_cons,
          List.append_assoc, List.singleton_append, List.eraseDups_cons, others]

theorem reverse_mark_nil (met : List α) : (mark [] met).reverse = met.eraseDups := by
  simp [reverse_mark]

end Mark

variable [DecidableEq κ]

/-- Some subscriptions were met, and nobody new among their listeners had a call to make. -/
structure Passes (callsOf : Listener κ → List (Call ν κ)) (seen : List (Listener κ))
    (met : List (Subscription (Listener κ))) (seen' : List (Listener κ)) : Prop where
  seen_eq : seen' = mark seen (met.map (·.listener))
  calls_eq : seen'.reverse.flatMap callsOf = seen.reverse.flatMap callsOf

namespace Passes

variable {callsOf : Listener κ → List (Call ν κ)} {seen seen' seen'' : List (Listener κ)}
variable {met met' : List (Subscription (Listener κ))} {s : Subscription (Listener κ)}

theorem nil (callsOf : Listener κ → List (Call ν κ)) (seen : List (Listener κ)) :
    Passes callsOf seen [] seen := ⟨rfl, rfl⟩

theorem append (first : Passes callsOf seen met seen') (second : Passes callsOf seen' met' seen'') :
    Passes callsOf seen (met ++ met') seen'' where
  seen_eq := by rw [second.seen_eq, first.seen_eq, List.map_append, mark_append]
  calls_eq := second.calls_eq.trans first.calls_eq

/-- A listener that was notified before is passed over. -/
theorem old (notified : s.listener ∈ seen) : Passes callsOf seen [s] seen where
  seen_eq := by rw [List.map_singleton, mark_cons, if_pos notified]; rfl
  calls_eq := rfl

/-- A listener without calls is notified in silence. -/
theorem silent (new : s.listener ∉ seen) (no_calls : callsOf s.listener = []) :
    Passes callsOf seen [s] (s.listener :: seen) where
  seen_eq := by rw [List.map_singleton, mark_cons, if_neg new]; rfl
  calls_eq := by
    rw [List.reverse_cons, List.flatMap_append, List.flatMap_singleton, no_calls, List.append_nil]

end Passes

/-! ## Queues -/

section Queue

variable {callsOf : Listener κ → List (Call ν κ)} {seen seen' : List (Listener κ)}
variable {queue rest : List (Subscription (Listener κ))} {call : Call ν κ}
variable {calls : List (Call ν κ)}

/-- A queue without a call is passed completely. -/
theorem passes_of_nextInQueue_eq_none
    (through : nextInQueue callsOf seen queue = (none, seen')) :
    Passes callsOf seen queue seen' := by
  induction queue generalizing seen with
  | nil =>
      cases through
      exact .nil _ _
  | cons s queue ih =>
      rw [nextInQueue] at through
      split at through
      · next notified => exact (Passes.old notified).append (ih through)
      · next new =>
          split at through
          · next no_calls => exact (Passes.silent new no_calls).append (ih through)
          · cases through

/-- A queue with a call is passed up to the listener that makes it. -/
theorem passes_of_nextInQueue_eq_some
    (found : nextInQueue callsOf seen queue = (some (call, calls, rest), seen')) :
    ∃ read s seen₁, queue = read ++ s :: rest ∧ Passes callsOf seen read seen₁ ∧
      s.listener ∉ seen₁ ∧ callsOf s.listener = call :: calls ∧
      seen' = s.listener :: seen₁ := by
  induction queue generalizing seen with
  | nil => cases found
  | cons s queue ih =>
      rw [nextInQueue] at found
      split at found
      · next notified =>
          obtain ⟨read, s', seen₁, rfl, passes, speaker⟩ := ih found
          exact ⟨s :: read, s', seen₁, rfl, (Passes.old notified).append passes, speaker⟩
      · next new =>
          split at found
          · next no_calls =>
              obtain ⟨read, s', seen₁, rfl, passes, speaker⟩ := ih found
              exact ⟨s :: read, s', seen₁, rfl, (Passes.silent new no_calls).append passes,
                speaker⟩
          · next speaks =>
              cases found
              exact ⟨[], s, seen, rfl, .nil _ _, new, speaks, rfl⟩

end Queue

/-! ## Deliveries -/

/-- How a delivery goes on with a call: the listener that made the last call makes one
more, or some nodes are left behind, the subscriptions read there are passed, and a new
listener makes its first call. -/
inductive Delivery.Advances (callsOf : Listener κ → List (Call ν κ))
    (listenersAt : Node ν → List (Subscription (Listener κ))) (d : Delivery ν κ)
    (call : Call ν κ) : Delivery ν κ → Prop
  | again {calls : List (Call ν κ)} (calls_eq : d.calls = call :: calls) :
      Advances callsOf listenersAt d call { d with calls }
  | onward {front path : List (Node ν)} {read queue : List (Subscription (Listener κ))}
      {s : Subscription (Listener κ)} {seen : List (Listener κ)} {calls : List (Call ν κ)}
      (no_calls : d.calls = []) (path_eq : d.path = front ++ path)
      (queue_eq : d.queue ++ front.flatMap listenersAt = read ++ s :: queue)
      (passes : Passes callsOf d.seen read seen) (new : s.listener ∉ seen)
      (speaks : callsOf s.listener = call :: calls) :
      Advances callsOf listenersAt d call
        { d with calls, queue, path, seen := s.listener :: seen }

section Next

variable {callsOf : Listener κ → List (Call ν κ)}
variable {listenersAt : Node ν → List (Subscription (Listener κ))}
variable {d d' : Delivery ν κ} {seen : List (Listener κ)} {path : List (Node ν)}
variable {call : Call ν κ}

theorem Delivery.passes_of_climb_eq_none
    (through : d.climb callsOf listenersAt seen path = none) :
    ∃ seen', Passes callsOf seen (path.flatMap listenersAt) seen' := by
  induction path generalizing seen with
  | nil => exact ⟨seen, .nil callsOf seen⟩
  | cons n path ih =>
      rw [climb] at through
      split at through
      · cases through
      · next seen₁ silent =>
          obtain ⟨seen', passes⟩ := ih through
          exact ⟨seen', (passes_of_nextInQueue_eq_none silent).append passes⟩

theorem Delivery.passes_of_climb_eq_some
    (found : d.climb callsOf listenersAt seen path = some (call, d')) :
    ∃ front path' read queue s seen₁ calls, path = front ++ path' ∧
      front.flatMap listenersAt = read ++ s :: queue ∧ Passes callsOf seen read seen₁ ∧
      s.listener ∉ seen₁ ∧ callsOf s.listener = call :: calls ∧
      d' = { d with calls, queue, path := path', seen := s.listener :: seen₁ } := by
  induction path generalizing seen with
  | nil => cases found
  | cons n path ih =>
      rw [climb] at found
      split at found
      · next call calls queue seen' found_here =>
          cases found
          obtain ⟨read, s, seen₁, queue_eq, passes, new, speaks, rfl⟩ :=
            passes_of_nextInQueue_eq_some found_here
          refine ⟨[n], path, read, queue, s, seen₁, calls, rfl, ?_, passes, new, speaks, rfl⟩
          rw [List.flatMap_singleton, queue_eq]
      · next seen' silent =>
          obtain ⟨front, path', read, queue, s, seen₁, calls, rfl, queue_eq, passes, speaker⟩ :=
            ih found
          refine ⟨n :: front, path', listenersAt n ++ read, queue, s, seen₁, calls, rfl, ?_,
            (passes_of_nextInQueue_eq_none silent).append passes, speaker⟩
          rw [List.flatMap_cons, queue_eq, List.append_assoc]

/-- A delivery is over when everything ahead of it is passed. -/
theorem Delivery.passes_of_next_eq_none (is_over : d.next callsOf listenersAt = none) :
    d.calls = [] ∧
      ∃ seen', Passes callsOf d.seen (d.queue ++ d.path.flatMap listenersAt) seen' := by
  rw [next] at is_over
  split at is_over
  · cases is_over
  · next no_calls =>
      refine ⟨no_calls, ?_⟩
      split at is_over
      · cases is_over
      · next seen₁ silent =>
          obtain ⟨seen', passes⟩ := passes_of_climb_eq_none is_over
          exact ⟨seen', (passes_of_nextInQueue_eq_none silent).append passes⟩

theorem Delivery.advances_of_next_eq_some (found : d.next callsOf listenersAt = some (call, d')) :
    d.Advances callsOf listenersAt call d' := by
  rw [next] at found
  split at found
  · next first calls calls_eq =>
      cases found
      exact .again calls_eq
  · next no_calls =>
      split at found
      · next first calls queue seen' found_here =>
          cases found
          obtain ⟨read, s, seen₁, queue_eq, passes, new, speaks, rfl⟩ :=
            passes_of_nextInQueue_eq_some found_here
          refine .onward no_calls (List.nil_append _).symm ?_ passes new speaks
          rw [queue_eq]
          exact List.append_nil _
      · next seen' silent =>
          obtain ⟨front, path', read, queue, s, seen₁, calls, path_eq, queue_eq, passes, new,
            speaks, rfl⟩ := passes_of_climb_eq_some found
          refine .onward no_calls path_eq ?_
            ((passes_of_nextInQueue_eq_none silent).append passes) new speaks
          rw [queue_eq, List.append_assoc]

namespace Delivery.Advances

variable (advances : d.Advances callsOf listenersAt call d')

include advances

theorem parent_eq : d'.parent = d.parent := by
  cases advances <;> rfl

theorem path_suffix : d'.path <:+ d.path := by
  cases advances with
  | again calls_eq => exact List.suffix_rfl
  | onward no_calls path_eq queue_eq passes new speaks => exact ⟨_, path_eq.symm⟩

end Delivery.Advances

end Next

end PointPattern
