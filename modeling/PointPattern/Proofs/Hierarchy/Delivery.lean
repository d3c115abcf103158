/-
# Whom a delivery notifies

While a delivery is under way, the listeners may begin further deliveries, change the
subscriptions, and fail. The calls of one delivery are told apart from those of the
others by the depth at which they are made. Whatever else happens, a delivery notifies no
listener twice, none without a subscription on the way, and, if it comes to its end,
everyone who was subscribed on the way from its beginning to its end. As long as the
subscriptions on the way stay what they were, it notifies their listeners from the parent
upwards, in the order of subscription, each at the first occurrence.
-/

import PointPattern.Proofs.Hierarchy.Track

namespace PointPattern

variable {ν κ : Type} [DecidableEq ν] [DecidableEq κ]

/-! ## What becomes of one delivery -/

namespace Session

variable {s : Session ν κ} {d : Delivery ν κ} {inner rest : List (Delivery ν κ)}

/-- What a command can make of a delivery under way, where the older ones are given. -/
inductive Fate (s : Session ν κ) (d : Delivery ν κ) (rest : List (Delivery ν κ)) :
    Session ν κ × Signal ν κ → Prop
  /-- The delivery is left alone, and if a call is to be made, a newer one makes it. -/
  | kept {inner : List (Delivery ν κ)} {x : Session ν κ × Signal ν κ}
      (pending : x.1.pending = inner ++ d :: rest)
      (newer : ∀ call, x.2 = .called call → inner ≠ []) : Fate s d rest x
  /-- The delivery makes its next call. -/
  | advanced {call : Call ν κ} {d' : Delivery ν κ}
      (advances : d.Advances (s.callsOf d.child d.parent) s.hierarchy.listenersAt call d') :
      Fate s d rest ({ s with pending := d' :: rest }, .called call)
  /-- The delivery comes to its end. -/
  | completed {seen : List (Listener κ)} (no_calls : d.calls = [])
      (passes : Passes (s.callsOf d.child d.parent) d.seen
        (d.queue ++ d.path.flatMap s.hierarchy.listenersAt) seen) :
      Fate s d rest ({ s with pending := rest }, .returned)
  /-- The call of the delivery has failed. -/
  | failed (e : Error) : Fate s d rest ({ s with pending := rest }, .raised e)

/-- Going on with a newer delivery leaves an older one alone. -/
theorem fate_proceed_of_newer {s' : Session ν κ} {newest : Delivery ν κ}
    (pending : s'.pending = newest :: (inner ++ d :: rest)) : Fate s d rest s'.proceed := by
  cases next : newest.next (s'.callsOf newest.child newest.parent) s'.hierarchy.listenersAt with
  | none =>
      rw [proceed_of_next_eq_none pending next]
      exact .kept rfl fun call impossible => by cases impossible
  | some found =>
      obtain ⟨call, newest'⟩ := found
      rw [proceed_of_next_eq_some pending next]
      exact .kept (List.cons_append ..).symm fun _ _ => List.cons_ne_nil _ _

theorem fate_proceed (pending : s.pending = d :: rest) : Fate s d rest s.proceed := by
  cases next : d.next (s.callsOf d.child d.parent) s.hierarchy.listenersAt with
  | none =>
      obtain ⟨no_calls, seen, passes⟩ := Delivery.passes_of_next_eq_none next
      rw [proceed_of_next_eq_none pending next]
      exact .completed no_calls passes
  | some found =>
      obtain ⟨call, d'⟩ := found
      rw [proceed_of_next_eq_some pending next]
      exact .advanced (Delivery.advances_of_next_eq_some next)

theorem fate_act (pending : s.pending = inner ++ d :: rest) (command : Command ν κ) :
    Fate s d rest (s.act command) := by
  have move := s.move_act command
  generalize s.act command = x at move
  cases move with
  | still same no_call =>
      exact .kept (same.trans pending) fun call called => absurd called (no_call call)
  | attached present absent =>
      rw [deliver]
      apply fate_proceed_of_newer
      rw [pending]
  | updated pipeline result =>
      rw [update, deliver]
      apply fate_proceed_of_newer
      rw [pending]
  | finished =>
      cases inner with
      | nil => exact fate_proceed pending
      | cons newest inner => exact fate_proceed_of_newer pending
  | failed e =>
      cases inner with
      | nil =>
          rw [pending]
          exact .failed e
      | cons newest inner =>
          have popped : s.pending.drop 1 = inner ++ d :: rest := by
            rw [pending]
            rfl
          exact .kept popped fun call impossible => by cases impossible

end Session

/-! ## Runs while a delivery is under way -/

/-- What is promised holds of the rest of a delivery, whatever commands are given. -/
theorem Tracks.run {child parent : Node ν} {path : List (Node ν)}
    {atFirst : Node ν → List (Subscription (Listener κ))} {history : List (Session ν κ)}
    {s : Session ν κ} {d : Delivery ν κ} {calls : List (Call ν κ)}
    {inner rest : List (Delivery ν κ)} (commands : List (Command ν κ))
    (tracks : Tracks child parent path atFirst history s d)
    (partly : Partly (s.callsOf child parent) d.seen.reverse calls d.calls)
    (registered : s.Registered) (mem : s ∈ history) (pending : s.pending = inner ++ d :: rest)
    (under_way : ∀ x ∈ (s.trace commands).dropLast, rest.length < x.1.pending.length) :
    ∃ notified, Notifies ((s.play commands).callsOf child parent) path atFirst
      (history ++ (s.trace commands).map (·.1)) (EndsAt rest.length (s.trace commands))
      (calls ++ callsAt (rest.length + 1) (s.trace commands)) notified := by
  induction commands generalizing s d inner history calls with
  | nil =>
      refine ⟨d.seen.reverse, tracks.notifies_of_not_ended ?_ (List.subset_append_left _ _) ?_⟩
      · exact (List.append_nil calls).symm ▸ partly
      · rintro ⟨t, last, -⟩
        cases last
  | cons command commands ih =>
      have fate := s.fate_act pending command
      have extension := (s.edit_act command).extends
      have registered' := registered.act command
      have known (listener : Listener κ) (notified : listener ∈ d.seen.reverse) :
          s.Knows listener := tracks.known listener (.inl (List.mem_reverse.1 notified))
      rw [Session.trace] at under_way ⊢
      rw [Session.play]
      generalize s.act command = x at *
      cases fate with
      | @kept inner' x pending' newer =>
          have still : rest.length < x.1.pending.length := by
            rw [pending', List.length_append, List.length_cons]
            omega
          obtain ⟨notified, later⟩ := ih (tracks.kept extension)
            (partly.congr fun listener notified =>
              extension.callsOf_eq (known listener notified) child parent)
            registered' (List.mem_append_right _ List.mem_cons_self) pending'
            (under_way_tail under_way)
          refine ⟨notified, .cons _ _ still ?_⟩
          rw [callAt_eq_none pending' newer, Option.toList_none, List.append_nil]
          exact later
      | @advanced call d' advances =>
          have track' := (tracks.advanced registered ⟨s, mem, rfl⟩ advances).kept extension
          rw [tracks.child, tracks.parent] at advances
          have still : rest.length <
              ({ s with pending := d' :: rest } : Session ν κ).pending.length :=
            Nat.lt_succ_self rest.length
          obtain ⟨notified, later⟩ := ih track' (.advance (.inr partly) advances) registered'
            (List.mem_append_right _ List.mem_cons_self) (List.nil_append _).symm
            (under_way_tail under_way)
          refine ⟨notified, .cons _ _ still ?_⟩
          rw [callAt_called rfl]
          exact later
      | completed no_calls passes =>
          obtain rfl := commands_eq_nil under_way rfl
          rw [tracks.child, tracks.parent] at passes
          rw [no_calls] at partly
          refine ⟨_, tracks.notifies_of_passes ⟨s, mem, rfl⟩ ?_ passes
            (List.subset_append_left _ _) ⟨_, rfl, rfl⟩⟩
          exact (List.append_nil calls).trans partly.calls_eq
      | failed e =>
          obtain rfl := commands_eq_nil under_way rfl
          refine ⟨d.seen.reverse, tracks.notifies_of_not_ended ?_ (List.subset_append_left _ _) ?_⟩
          · exact (List.append_nil calls).symm ▸ partly
          · rintro ⟨t, last, -⟩
            cases last

namespace Session

/-- What is promised holds of every delivery that has just begun. -/
theorem exists_notifies_of_begun {s : Session ν κ} {d : Delivery ν κ}
    {rest : List (Delivery ν κ)} (registered : s.Registered) (pending : s.pending = d :: rest)
    (no_calls : d.calls = []) (no_queue : d.queue = []) (nobody_seen : d.seen = [])
    (commands : List (Command ν κ))
    (under_way : ∀ x ∈ (s.proceed :: s.proceed.1.trace commands).dropLast,
      rest.length < x.1.pending.length) :
    ∃ notified, Notifies ((s.proceed.1.play commands).callsOf d.child d.parent) d.path
      s.hierarchy.listenersAt (s.proceed.1 :: (s.proceed.1.trace commands).map (·.1))
      (EndsAt rest.length (s.proceed :: s.proceed.1.trace commands))
      (callsAt (rest.length + 1) (s.proceed :: s.proceed.1.trace commands)) notified := by
  have tracks : Tracks d.child d.parent d.path s.hierarchy.listenersAt [s.proceed.1] s d :=
    .begun no_queue nobody_seen
  have mem : ∃ t ∈ [s.proceed.1], t.hierarchy = s.hierarchy :=
    ⟨_, List.mem_singleton.2 rfl, hierarchy_proceed s⟩
  have made : ([] : List (Call ν κ)) = d.seen.reverse.flatMap (s.callsOf d.child d.parent) := by
    rw [nobody_seen]
    rfl
  cases next : d.next (s.callsOf d.child d.parent) s.hierarchy.listenersAt with
  | none =>
      obtain ⟨-, seen, passes⟩ := Delivery.passes_of_next_eq_none next
      rw [proceed_of_next_eq_none pending next] at tracks mem under_way ⊢
      obtain rfl := commands_eq_nil under_way rfl
      exact ⟨_, tracks.notifies_of_passes mem made passes (List.Subset.refl _) ⟨_, rfl, rfl⟩⟩
  | some found =>
      obtain ⟨call, d'⟩ := found
      have advances := Delivery.advances_of_next_eq_some next
      have partly := Partly.advance (.inl ⟨no_calls, made⟩) advances
      have tracks' := tracks.advanced registered mem advances
      rw [proceed_of_next_eq_some pending next] at tracks' under_way ⊢
      generalize started : ({ s with pending := d' :: rest } : Session ν κ) = t at *
      have pending' : t.pending = [] ++ d' :: rest := by rw [← started]; rfl
      have extension : s.Extends t := .of_pipelines_eq (by rw [← started]) (by rw [← started])
      have registered' : t.Registered :=
        started ▸ ⟨registered.registry, fun mem => registered.known mem⟩
      have still : rest.length < t.pending.length := by
        rw [pending', List.nil_append, List.length_cons]
        exact Nat.lt_succ_self _
      obtain ⟨notified, later⟩ := Tracks.run commands
        { tracks' with known := fun listener mem => extension.knows (tracks'.known listener mem) }
        (partly.congr fun listener notified => extension.callsOf_eq
          (tracks'.known listener (.inl (List.mem_reverse.1 notified))) d.child d.parent)
        registered' (List.mem_singleton.2 rfl) pending' (under_way_tail under_way)
      refine ⟨notified, .cons [] [] still ?_⟩
      rw [callAt_called pending']
      exact later

/-- An attachment that is accepted begins a delivery from the parent upwards. -/
theorem act_attach {s : Session ν κ} {child parent : Node ν}
    (present : s.hierarchy.contains (s.hierarchy.orRoot parent) = true)
    (absent : s.hierarchy.contains child = false) :
    s.act (.attach child parent) =
      deliver { s with hierarchy := s.hierarchy.graft child (s.hierarchy.orRoot parent) }
        (notice (s.hierarchy.graft child (s.hierarchy.orRoot parent)) child
          (s.hierarchy.orRoot parent)) := by
  rw [act, attach, Hierarchy.attach_of_contains present absent]

theorem Registered.trace {s : Session ν κ} (registered : s.Registered)
    (commands : List (Command ν κ)) : ∀ x ∈ s.trace commands, x.1.Registered := by
  induction commands generalizing s with
  | nil => exact fun x mem => by cases mem
  | cons command commands ih =>
      intro x mem
      rcases List.mem_cons.1 mem with rfl | mem
      · exact registered.act command
      · exact ih (registered.act command) x mem

theorem listenersAt_act {s : Session ν κ} {command : Command ν κ}
    (keeps : command.keepsSubscriptions = true) :
    (s.act command).1.hierarchy.listenersAt = s.hierarchy.listenersAt :=
  funext (sameListeners_act keeps).listenersAt_eq

/-- Commands that leave the subscriptions alone leave them alone in every state. -/
theorem listenersAt_trace {s : Session ν κ} {commands : List (Command ν κ)}
    (keeps : ∀ command ∈ commands, command.keepsSubscriptions = true) :
    ∀ x ∈ s.trace commands, x.1.hierarchy.listenersAt = s.hierarchy.listenersAt := by
  induction commands generalizing s with
  | nil => exact fun x mem => by cases mem
  | cons command commands ih =>
      have first : (s.act command).1.hierarchy.listenersAt = s.hierarchy.listenersAt :=
        listenersAt_act (keeps command List.mem_cons_self)
      intro x mem
      rcases List.mem_cons.1 mem with rfl | mem
      · exact first
      · exact (ih (fun c c_mem => keeps c (List.mem_cons_of_mem _ c_mem)) x mem).trans first

/-- The delivery law. Take any state that commands lead to from a root, a child that is
absent and a parent that is present, and any commands while the child is delivered. At each
node the listeners are the live subscriptions, the oldest first, and commands that do not
concern subscriptions leave them alone. There is a list of listeners that the delivery
notifies on its way from the parent to the root, and the calls that it makes are those of
this list in order, up to the call at which it stands or was stopped. -/
theorem attach_notifies (root : Node ν) (before commands : List (Command ν κ))
    (child parent : Node ν) :
    let s := (ofRoot root : Session ν κ).play before
    let p := s.hierarchy.orRoot parent
    let trace := s.trace (.attach child parent :: commands)
    s.hierarchy.contains p = true → s.hierarchy.contains child = false →
    (∀ x ∈ trace.dropLast, s.pending.length < x.1.pending.length) →
    (s.hierarchy.IsRegistry ∧ ∀ x ∈ trace, x.1.hierarchy.IsRegistry) ∧
      ((∀ command ∈ commands, command.keepsSubscriptions = true) →
        ∀ x ∈ trace, x.1.hierarchy.listenersAt = s.hierarchy.listenersAt) ∧
      ∃ notified, Notifies ((s.play (.attach child parent :: commands)).callsOf child p)
        (p :: s.hierarchy.ancestorsOf p) s.hierarchy.listenersAt (trace.map (·.1))
        (EndsAt s.pending.length trace) (callsAt (s.pending.length + 1) trace) notified := by
  intro s p trace present absent under_way
  have sound : s.Sound := (sound_ofRoot root).play before
  have registered : s.Registered := (registered_ofRoot root).play before
  refine ⟨⟨registered.registry, fun x mem => (registered.trace _ x mem).registry⟩,
    fun keeps => ?_, ?_⟩
  · apply listenersAt_trace
    intro command mem
    rcases List.mem_cons.1 mem with rfl | mem
    · rfl
    · exact keeps command mem
  · have absent_child := (Hierarchy.not_mem_of_contains_eq_false absent).2
    have p_mem : p ∈ s.hierarchy.nodes := sound.tree.orRoot_mem present
    have grown := sound.tree.grows_graft p_mem absent_child
    have begun : s.act (.attach child parent) = proceed { s with
        hierarchy := s.hierarchy.graft child p
        pending := notice (s.hierarchy.graft child p) child p :: s.pending } :=
      act_attach present absent
    have registered' : Registered { s with
        hierarchy := s.hierarchy.graft child p
        pending := notice (s.hierarchy.graft child p) child p :: s.pending } :=
      ⟨(Hierarchy.Change.grafted present absent).isRegistry registered.registry,
        fun mem => registered.known mem⟩
    have notifies := exists_notifies_of_begun registered' rfl rfl rfl rfl commands
    rw [← begun] at notifies
    rw [← grown.ancestorsOf_eq sound.tree p_mem]
    exact notifies under_way

/-- Two listeners on the way from a node to the root, one of them subscribed twice. -/
theorem attach_notifies_twoListeners :
    let s := (ofRoot (.object 0) : Session ℕ String).play
      [.attach (.object 1) .null, .subscribe "near" (.object 1), .subscribe "far" .null,
        .subscribe "near" .null]
    let trace := s.trace [.attach (.object 2) (.object 1), .finish, .finish]
    callsAt 1 trace =
        [.notify "near" (.object 2) (.object 1), .notify "far" (.object 2) (.object 1)] ∧
      ∃ notified, Notifies ((s.play [.attach (.object 2) (.object 1), .finish, .finish]).callsOf
          (.object 2) (.object 1))
        [.object 1, .object 0] s.hierarchy.listenersAt (trace.map (·.1)) (EndsAt 0 trace)
        (callsAt 1 trace) notified :=
  ⟨rfl, (attach_notifies (.object 0)
    [.attach (.object 1) .null, .subscribe "near" (.object 1), .subscribe "far" .null,
      .subscribe "near" .null]
    [.finish, .finish] (.object 2) (.object 1) (by decide) (by decide) (by decide)).2.2⟩

end Session

end PointPattern
