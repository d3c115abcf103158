/-
# The invariant of a delivery

After any number of states a delivery knows where it is: whom it has notified, whom it
has found at the node where it stands, and which nodes are left. Everyone it knows of was
subscribed on the way at some time, and whoever has been subscribed on the way all the
time is among those it has notified or has still to meet. The invariant is kept by
whatever happens beside the delivery and by every call that it makes; in the end it gives
what is promised of the delivery.
-/

import PointPattern.Proofs.Hierarchy.Observation

namespace PointPattern

variable {ν κ : Type} [DecidableEq ν] [DecidableEq κ]

/-- A delivery after the states of a history, as far as the subscriptions go. -/
structure Tracks (child parent : Node ν) (path : List (Node ν))
    (atFirst : Node ν → List (Subscription (Listener κ))) (history : List (Session ν κ))
    (s : Session ν κ) (d : Delivery ν κ) : Prop where
  child : d.child = child
  parent : d.parent = parent
  nodup : d.seen.Nodup
  path_subset : d.path ⊆ path
  known : ∀ listener, listener ∈ d.seen ∨ listener ∈ d.queue.map (·.listener) →
    s.Knows listener
  met : ∀ listener, listener ∈ d.seen ∨ listener ∈ d.queue.map (·.listener) →
    ∃ s ∈ history, ∃ n ∈ path, ∃ subscription ∈ s.hierarchy.listenersAt n,
      subscription.listener = listener
  covers : ∀ n ∈ path, ∀ subscription,
    (∀ s ∈ history, subscription ∈ s.hierarchy.listenersAt n) →
      subscription.listener ∈ d.seen ∨ subscription ∈ d.queue ∨ n ∈ d.path
  in_order : (∀ s ∈ history, ∀ n ∈ path, s.hierarchy.listenersAt n = atFirst n) →
    mark d.seen ((d.queue ++ d.path.flatMap atFirst).map (·.listener)) =
      mark [] ((path.flatMap atFirst).map (·.listener))

namespace Tracks

variable {child parent : Node ν} {path : List (Node ν)}
variable {atFirst : Node ν → List (Subscription (Listener κ))}
variable {history : List (Session ν κ)} {s s' : Session ν κ} {d d' : Delivery ν κ}

/-- A delivery that has met nobody is at the beginning of its track. -/
theorem begun (no_queue : d.queue = []) (nobody_seen : d.seen = []) :
    Tracks d.child d.parent d.path atFirst history s d := by
  have nobody (listener : Listener κ) :
      ¬ (listener ∈ d.seen ∨ listener ∈ d.queue.map (·.listener)) := by
    simp [nobody_seen, no_queue]
  constructor
  case child => rfl
  case parent => rfl
  case nodup => exact nobody_seen ▸ List.nodup_nil
  case path_subset => exact List.Subset.refl _
  case known => exact fun listener mem => absurd mem (nobody listener)
  case met => exact fun listener mem => absurd mem (nobody listener)
  case covers => exact fun n mem _ _ => .inr (.inr mem)
  case in_order =>
    intro _
    rw [nobody_seen, no_queue, List.nil_append]

/-- A delivery that is left alone stays on its track. -/
theorem kept (tracks : Tracks child parent path atFirst history s d)
    (extension : s.Extends s') : Tracks child parent path atFirst (history ++ [s']) s' d where
  child := tracks.child
  parent := tracks.parent
  nodup := tracks.nodup
  path_subset := tracks.path_subset
  known listener mem := extension.knows (tracks.known listener mem)
  met listener mem := by
    obtain ⟨t, t_mem, rest⟩ := tracks.met listener mem
    exact ⟨t, List.mem_append_left _ t_mem, rest⟩
  covers n mem subscription live :=
    tracks.covers n mem subscription fun t t_mem => live t (List.mem_append_left _ t_mem)
  in_order unchanged := tracks.in_order fun t t_mem => unchanged t (List.mem_append_left _ t_mem)

/-- The subscriptions ahead of a delivery, as long as nothing is changed on its way. -/
theorem flatMap_eq (tracks : Tracks child parent path atFirst history s d)
    (mem : ∃ t ∈ history, t.hierarchy = s.hierarchy) (unchanged : ∀ s ∈ history, ∀ n ∈ path,
      s.hierarchy.listenersAt n = atFirst n) {nodes : List (Node ν)} (inside : nodes ⊆ d.path) :
    nodes.flatMap s.hierarchy.listenersAt = nodes.flatMap atFirst := by
  obtain ⟨t, t_mem, same⟩ := mem
  apply List.flatMap_congr
  intro n n_mem
  rw [← same]
  exact unchanged t t_mem n (tracks.path_subset (inside n_mem))

/-! ### The subscriptions ahead -/

omit [DecidableEq ν] in
/-- Whoever is notified on going over the queue and some nodes was known before or is
subscribed at one of the nodes. -/
theorem mem_mark_ahead {listenersAt : Node ν → List (Subscription (Listener κ))}
    {seen : List (Listener κ)} {queue : List (Subscription (Listener κ))}
    {nodes : List (Node ν)} {listener : Listener κ}
    (notified : listener ∈ mark seen ((queue ++ nodes.flatMap listenersAt).map (·.listener))) :
    (listener ∈ seen ∨ listener ∈ queue.map (·.listener)) ∨
      ∃ n ∈ nodes, ∃ x ∈ listenersAt n, x.listener = listener := by
  rcases mem_mark.1 notified with old | ahead
  · exact .inl (.inl old)
  · obtain ⟨x, x_mem, rfl⟩ := List.mem_map.1 ahead
    rcases List.mem_append.1 x_mem with queued | listed
    · exact .inl (.inr (List.mem_map_of_mem queued))
    · obtain ⟨n, n_mem, x_mem⟩ := List.mem_flatMap.1 listed
      exact .inr ⟨n, n_mem, x, x_mem, rfl⟩

theorem known_ahead (tracks : Tracks child parent path atFirst history s d)
    (registered : s.Registered) {front : List (Node ν)} {listener : Listener κ}
    (notified : listener ∈
      mark d.seen ((d.queue ++ front.flatMap s.hierarchy.listenersAt).map (·.listener))) :
    s.Knows listener := by
  rcases mem_mark_ahead notified with before | ⟨n, -, x, listed, rfl⟩
  · exact tracks.known listener before
  · exact registered.known listed

/-- Whoever is notified on going over nodes ahead was subscribed on the way. -/
theorem met_ahead (tracks : Tracks child parent path atFirst history s d)
    (mem : ∃ t ∈ history, t.hierarchy = s.hierarchy) {front : List (Node ν)}
    (inside : front ⊆ d.path) {listener : Listener κ}
    (notified : listener ∈
      mark d.seen ((d.queue ++ front.flatMap s.hierarchy.listenersAt).map (·.listener))) :
    ∃ t ∈ history, ∃ n ∈ path, ∃ subscription ∈ t.hierarchy.listenersAt n,
      subscription.listener = listener := by
  rcases mem_mark_ahead notified with before | ⟨n, n_mem, x, listed, rfl⟩
  · exact tracks.met listener before
  · obtain ⟨t, t_mem, same⟩ := mem
    exact ⟨t, t_mem, n, tracks.path_subset (inside n_mem), x, same ▸ listed, rfl⟩

/-- Whoever has been subscribed all the time was notified, is met on going over the first
of the nodes ahead, or is subscribed further on. -/
theorem covers_ahead (tracks : Tracks child parent path atFirst history s d)
    (mem : ∃ t ∈ history, t.hierarchy = s.hierarchy) {front further : List (Node ν)}
    (path_eq : d.path = front ++ further) {n : Node ν} (n_mem : n ∈ path)
    {subscription : Subscription (Listener κ)}
    (live : ∀ t ∈ history, subscription ∈ t.hierarchy.listenersAt n) :
    subscription.listener ∈ d.seen ∨
      subscription ∈ d.queue ++ front.flatMap s.hierarchy.listenersAt ∨ n ∈ further := by
  rcases tracks.covers n n_mem subscription live with old | queued | ahead
  · exact .inl old
  · exact .inr (.inl (List.mem_append_left _ queued))
  · rw [path_eq] at ahead
    rcases List.mem_append.1 ahead with met | later
    · obtain ⟨t, t_mem, same⟩ := mem
      have listed : subscription ∈ s.hierarchy.listenersAt n := same ▸ live t t_mem
      exact .inr (.inl (List.mem_append_right _ (List.mem_flatMap.2 ⟨n, met, listed⟩)))
    · exact .inr (.inr later)

/-- As long as nothing is changed on the way, going over the first of the nodes ahead
leaves the order of all notifications as it was at first. -/
theorem in_order_ahead (tracks : Tracks child parent path atFirst history s d)
    (mem : ∃ t ∈ history, t.hierarchy = s.hierarchy) {front further : List (Node ν)}
    (path_eq : d.path = front ++ further)
    (unchanged : ∀ t ∈ history, ∀ n ∈ path, t.hierarchy.listenersAt n = atFirst n) :
    mark (mark d.seen ((d.queue ++ front.flatMap s.hierarchy.listenersAt).map (·.listener)))
        ((further.flatMap atFirst).map (·.listener)) =
      mark [] ((path.flatMap atFirst).map (·.listener)) := by
  have inside : front ⊆ d.path := path_eq ▸ List.subset_append_left _ _
  rw [tracks.flatMap_eq mem unchanged inside, ← mark_append, ← List.map_append,
    List.append_assoc, ← List.flatMap_append, ← path_eq]
  exact tracks.in_order unchanged

/-- A call keeps a delivery on its track. -/
theorem advanced (tracks : Tracks child parent path atFirst history s d)
    (registered : s.Registered) (mem : ∃ t ∈ history, t.hierarchy = s.hierarchy)
    {call : Call ν κ}
    (advances : d.Advances (s.callsOf d.child d.parent) s.hierarchy.listenersAt call d') :
    Tracks child parent path atFirst history s d' := by
  cases advances with
  | again calls_eq => exact { tracks with }
  | @onward front further read queue subscription seen calls no_calls path_eq queue_eq passes new
      speaks =>
      -- Going over the queue that was read and over the rest of it is going over the front.
      have front_eq :
          mark d.seen ((d.queue ++ front.flatMap s.hierarchy.listenersAt).map (·.listener)) =
            mark (subscription.listener :: seen) (queue.map (·.listener)) := by
        rw [queue_eq, List.map_append, mark_append, ← passes.seen_eq, List.map_cons, mark_cons,
          if_neg new]
      have seen_nodup : seen.Nodup := passes.seen_eq ▸ nodup_mark tracks.nodup
      constructor
      case child => exact tracks.child
      case parent => exact tracks.parent
      case nodup => exact List.nodup_cons.2 ⟨new, seen_nodup⟩
      case path_subset =>
        intro n n_mem
        exact tracks.path_subset (path_eq ▸ List.mem_append_right _ n_mem)
      case known =>
        intro listener reached
        exact tracks.known_ahead registered (front_eq ▸ mem_mark.2 reached)
      case met =>
        intro listener reached
        have inside : front ⊆ d.path := path_eq ▸ List.subset_append_left _ _
        exact tracks.met_ahead mem inside (front_eq ▸ mem_mark.2 reached)
      case covers =>
        intro n n_mem x live
        have seen_subset {listener : Listener κ} (notified : listener ∈ seen) :
            listener ∈ subscription.listener :: seen := List.mem_cons_of_mem _ notified
        rcases tracks.covers_ahead mem path_eq n_mem live with old | met | later
        · exact .inl (seen_subset (passes.seen_eq ▸ mem_mark.2 (.inl old)))
        · rw [queue_eq] at met
          rcases List.mem_append.1 met with passed | met
          · exact .inl (seen_subset
              (passes.seen_eq ▸ mem_mark.2 (.inr (List.mem_map_of_mem passed))))
          · rcases List.mem_cons.1 met with rfl | queued
            · exact .inl List.mem_cons_self
            · exact .inr (.inl queued)
        · exact .inr (.inr later)
      case in_order =>
        intro unchanged
        rw [List.map_append, mark_append, ← front_eq]
        exact tracks.in_order_ahead mem path_eq unchanged

end Tracks

omit [DecidableEq ν] in
/-- A call is made by the listener that made the last one, or by a new one once the last
one has no call left. -/
theorem Partly.advance {callsOf : Listener κ → List (Call ν κ)}
    {calls : List (Call ν κ)} {listenersAt : Node ν → List (Subscription (Listener κ))}
    {d d' : Delivery ν κ} {call : Call ν κ}
    (made : d.calls = [] ∧ calls = d.seen.reverse.flatMap callsOf ∨
      Partly callsOf d.seen.reverse calls d.calls)
    (advances : d.Advances callsOf listenersAt call d') :
    Partly callsOf d'.seen.reverse (calls ++ [call]) d'.calls := by
  cases advances with
  | again calls_eq =>
      rcases made with ⟨no_calls, -⟩ | ⟨earlier, latest, part, seen_eq, some_part, part_eq, rfl⟩
      · rw [no_calls] at calls_eq
        cases calls_eq
      · refine ⟨earlier, latest, part ++ [call], seen_eq, by simp, ?_, by simp⟩
        rw [← part_eq, calls_eq, List.append_assoc, List.singleton_append]
  | @onward front further read queue subscription seen calls' no_calls path_eq queue_eq passes new
      speaks =>
      have all_made : calls = seen.reverse.flatMap callsOf := by
        rw [passes.calls_eq]
        rcases made with ⟨-, all_made⟩ | partly
        · exact all_made
        · rw [no_calls] at partly
          exact partly.calls_eq
      refine ⟨seen.reverse, subscription.listener, [call], List.reverse_cons, by simp, ?_, ?_⟩
      · exact speaks.symm
      · rw [all_made]

/-! ## Keeping the promise -/

section Promise

variable {child parent : Node ν} {path : List (Node ν)}
variable {atFirst : Node ν → List (Subscription (Listener κ))}
variable {history states : List (Session ν κ)} {s s' : Session ν κ} {d : Delivery ν κ}
variable {calls : List (Call ν κ)} {callsOf : Listener κ → List (Call ν κ)} {ended : Prop}

/-- What is promised holds of a delivery that has not come to its end. -/
theorem Tracks.notifies_of_not_ended (tracks : Tracks child parent path atFirst history s d)
    (partly : Partly callsOf d.seen.reverse calls d.calls) (later : history ⊆ states)
    (not_ended : ¬ ended) : Notifies callsOf path atFirst states ended calls d.seen.reverse where
  nodup := List.nodup_reverse.2 tracks.nodup
  met listener mem := by
    obtain ⟨t, t_mem, rest⟩ := tracks.met listener (.inl (List.mem_reverse.1 mem))
    exact ⟨t, later t_mem, rest⟩
  calls_of_ended has_ended := absurd has_ended not_ended
  calls_of_not_ended _ := ⟨d.calls, partly⟩
  covers has_ended := absurd has_ended not_ended
  in_order unchanged := by
    have same := tracks.in_order fun t t_mem => unchanged t (later t_mem)
    rw [← reverse_mark_nil, ← same, reverse_mark]
    exact ⟨List.prefix_append _ _, fun has_ended => absurd has_ended not_ended⟩

/-- What is promised holds of a delivery that comes to its end. -/
theorem Tracks.notifies_of_passes (tracks : Tracks child parent path atFirst history s d)
    (mem : ∃ t ∈ history, t.hierarchy = s.hierarchy) {seen : List (Listener κ)}
    (made : calls = d.seen.reverse.flatMap callsOf)
    (passes : Passes callsOf d.seen (d.queue ++ d.path.flatMap s.hierarchy.listenersAt) seen)
    (later : history ⊆ states) (has_ended : ended) :
    Notifies callsOf path atFirst states ended calls seen.reverse := by
  have nothing_further : d.path = d.path ++ [] := (List.append_nil _).symm
  constructor
  case nodup =>
    rw [List.nodup_reverse, passes.seen_eq]
    exact nodup_mark tracks.nodup
  case met =>
    intro listener notified
    rw [List.mem_reverse, passes.seen_eq] at notified
    obtain ⟨t, t_mem, rest⟩ := tracks.met_ahead mem (List.Subset.refl _) notified
    exact ⟨t, later t_mem, rest⟩
  case calls_of_ended =>
    intro _
    rw [made, passes.calls_eq]
  case calls_of_not_ended => exact fun not_ended => absurd has_ended not_ended
  case covers =>
    intro _ n n_mem x live
    rw [List.mem_reverse, passes.seen_eq]
    rcases tracks.covers_ahead mem nothing_further n_mem (fun t t_mem => live t (later t_mem))
      with old | met | impossible
    · exact mem_mark.2 (.inl old)
    · exact mem_mark.2 (.inr (List.mem_map_of_mem met))
    · cases impossible
  case in_order =>
    intro unchanged
    have all : seen.reverse = ((path.flatMap atFirst).map (·.listener)).eraseDups := by
      rw [← reverse_mark_nil, ← tracks.in_order_ahead mem nothing_further
        fun t t_mem => unchanged t (later t_mem), passes.seen_eq]
      rfl
    exact ⟨all ▸ List.prefix_rfl, fun _ => all⟩

end Promise

end PointPattern
