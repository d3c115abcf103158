/-
# Handles

A handle is granted once. As long as its subscription is live the handle has an owner, and among
the entries of all lists there is exactly one with this handle, in the list of the owner, which is a
node of the hierarchy. This is what makes a cancellation exact: the list from which it takes an
entry is there, the entry is in it, and no other entry has the handle, even if the same callback has
subscribed more than once or the lists are read by deliveries under way.
-/

import PointPattern.Proofs.Hierarchy.Roster
import Mathlib.Data.Int.Order.Basic
import Mathlib.Data.List.Nodup

namespace PointPattern

/-! ## Lists without duplicates -/

/-- If no two entries agree in a key, a filter for the key of an entry leaves this entry. -/
theorem filter_key_eq_singleton {α β : Type} [DecidableEq β] {key : α → β} {xs : List α} {x : α}
    (nodup : (xs.map key).Nodup) (mem : x ∈ xs) : xs.filter (key · = key x) = [x] := by
  induction xs with
  | nil => cases mem
  | cons y rest ih =>
      obtain ⟨fresh, nodup⟩ := List.nodup_cons.1 nodup
      rcases List.mem_cons.1 mem with rfl | later
      · have none_later : rest.filter (key · = key x) = [] := by
          refine List.filter_eq_nil_iff.2 fun y y_mem same => fresh ?_
          rw [← of_decide_eq_true same]
          exact List.mem_map_of_mem y_mem
        rw [List.filter_cons, if_pos (decide_eq_true rfl), none_later]
      · have different : key y ≠ key x := fun same => fresh (same ▸ List.mem_map_of_mem later)
        rw [List.filter_cons, if_neg (by rwa [decide_eq_true_eq]), ih nodup later]

namespace Ledger

variable {κ α : Type} [DecidableEq κ] {l : Ledger κ α} {key : κ} {value : α}

/-- Without duplicates a look-up finds what is entered. -/
theorem get?_eq_some_iff (nodup : l.keys.Nodup) :
    l.get? key = some value ↔ (key, value) ∈ l.entries := by
  obtain ⟨entries⟩ := l
  change (entries.map Prod.fst).Nodup at nodup
  change entries.lookup key = some value ↔ (key, value) ∈ entries
  induction entries with
  | nil => simp
  | cons entry rest ih =>
      obtain ⟨k, v⟩ := entry
      obtain ⟨fresh, nodup⟩ := List.nodup_cons.1 nodup
      rw [List.lookup_cons]
      by_cases same : key = k
      · subst same
        have not_later : (key, value) ∉ rest :=
          fun mem => fresh (List.mem_map.2 ⟨_, mem, rfl⟩)
        simp [not_later, eq_comm]
      · rw [beq_false_of_ne same, List.mem_cons, Prod.mk.injEq]
        exact (ih nodup).trans (or_iff_right fun first => same first.1).symm

theorem nodup_keys_put (nodup : l.keys.Nodup) : (l.put key value).keys.Nodup := by
  rw [keys_put]
  split
  · exact nodup
  · next absent => exact List.nodup_append.2 ⟨nodup, List.nodup_singleton key, by grind⟩

end Ledger

namespace Hierarchy

variable {ν κ : Type}

/-- The entries of all lists of listeners, each with the node of the list. -/
def entries (h : Hierarchy ν κ) : List (Node ν × Subscription κ) :=
  h.listeners.entries.flatMap fun list => list.2.map (list.1, ·)

variable [DecidableEq ν]

/-- The owners of the handles tell where the entries are: no two entries have the same handle, and a
handle has an owner exactly if one entry has it, in the list of the owner. The owner is a node, and
its list is on record. -/
structure HandlesAgree (h : Hierarchy ν κ) : Prop where
  nodup : (h.entries.map (·.2.handle)).Nodup
  owner_iff : ∀ handle owner, h.owners.get? handle = some owner ↔
    ∃ listener, h.entries.filter (·.2.handle = handle) = [(owner, ⟨handle, listener⟩)]
  owner_mem : ∀ handle owner, h.owners.get? handle = some owner → owner ∈ h.nodes
  list_mem : ∀ handle owner, h.owners.get? handle = some owner → owner ∈ h.listeners.keys

/-- Every node has at most one list, and only nodes own handles. -/
structure IsFiled (h : Hierarchy ν κ) : Prop where
  keys_nodup : h.listeners.keys.Nodup
  owner_mem : ∀ {handle owner}, h.owners.get? handle = some owner → owner ∈ h.nodes

/-- A cancellation takes the entry with a handle out of the list of its owner and leaves all others
where they are. -/
structure Cancels (h h' : Hierarchy ν κ) (handle : ℕ) (owner : Node ν) : Prop where
  entries : h'.entries = h.entries.filter (·.2.handle ≠ handle)
  at_owner : ∃ before listener after, h.listenersAt owner = before ++ ⟨handle, listener⟩ :: after ∧
    h'.listenersAt owner = before ++ after
  elsewhere : ∀ n, n ≠ owner → h'.listenersAt n = h.listenersAt n
  owners : ∀ other, h'.owners.get? other =
    if other = handle then none else h.owners.get? other
  nodes : h.SameNodes h'
  nextHandle : h'.nextHandle = h.nextHandle

variable {h h' : Hierarchy ν κ} {n owner : Node ν} {x : Subscription κ} {handle : ℕ}

/-! ## Owners and entries -/

theorem isFiled_ofRoot (root : Node ν) : (ofRoot root : Hierarchy ν κ).IsFiled where
  keys_nodup := List.nodup_nil
  owner_mem found := by cases found

/-- No change files anything twice or under what is not a node. -/
theorem IsFiled.change (filed : h.IsFiled) (tree : h.IsTree) (change : h.Change h') :
    h'.IsFiled := by
  cases change with
  | none => exact filed
  | grafted present absent =>
      exact ⟨filed.keys_nodup, fun found => List.mem_append_left _ (filed.owner_mem found)⟩
  | subscribed accepted =>
      obtain ⟨contained, -, rfl⟩ := subscribe_eq_ok accepted
      refine ⟨Ledger.nodup_keys_put filed.keys_nodup, fun {handle owner} found => ?_⟩
      rw [Ledger.get?_put] at found
      split at found
      · cases found
        exact tree.orRoot_mem contained
      · exact filed.owner_mem found
  | cancelled cancelled =>
      obtain ⟨owner, -, rfl⟩ := cancel?_eq_some cancelled
      refine ⟨Ledger.nodup_keys_put filed.keys_nodup, fun {handle owner} found => ?_⟩
      rw [Ledger.get?_erase] at found
      split at found
      · cases found
      · exact filed.owner_mem found

theorem IsFiled.listenersAt_eq (filed : h.IsFiled) {list : List (Subscription κ)}
    (mem : (n, list) ∈ h.listeners.entries) : h.listenersAt n = list := by
  rw [listenersAt, (Ledger.get?_eq_some_iff filed.keys_nodup).2 mem]
  rfl

/-- The entries are the subscriptions at the nodes. -/
theorem IsFiled.mem_entries (filed : h.IsFiled) : (n, x) ∈ h.entries ↔ x ∈ h.listenersAt n := by
  constructor
  · intro mem
    obtain ⟨⟨m, list⟩, list_mem, mem⟩ := List.mem_flatMap.1 mem
    obtain ⟨y, y_mem, same⟩ := List.mem_map.1 mem
    cases same
    rwa [filed.listenersAt_eq list_mem]
  · intro mem
    rw [listenersAt] at mem
    cases found : h.listeners.get? n with
    | none =>
        rw [found] at mem
        cases mem
    | some list =>
        rw [found] at mem
        exact List.mem_flatMap.2 ⟨(n, list), (Ledger.get?_eq_some_iff filed.keys_nodup).1 found,
          List.mem_map_of_mem mem⟩

/-- No two entries have the same handle: those of a list are ordered by their handles, and lists of
different nodes hold handles of different owners. -/
theorem IsFiled.nodup_handles (filed : h.IsFiled) (registry : h.IsRegistry) :
    (h.entries.map (·.2.handle)).Nodup := by
  have handles : h.entries.map (·.2.handle) =
      h.listeners.entries.flatMap fun list => list.2.map (·.handle) := by
    simp only [entries, List.map_flatMap, List.map_map, Function.comp_def]
  rw [handles, List.nodup_flatMap]
  constructor
  · rintro ⟨n, list⟩ mem
    have ordered := registry.ordered n
    rw [filed.listenersAt_eq mem] at ordered
    exact List.pairwise_map.2 (ordered.imp Nat.ne_of_lt)
  · have different := List.pairwise_map.1 filed.keys_nodup
    refine different.imp_of_mem fun {list list'} mem mem' other => ?_
    intro handle handle_mem handle_mem'
    obtain ⟨s, s_mem, rfl⟩ := List.mem_map.1 handle_mem
    obtain ⟨s', s'_mem, same⟩ := List.mem_map.1 handle_mem'
    rw [← filed.listenersAt_eq mem] at s_mem
    rw [← filed.listenersAt_eq mem'] at s'_mem
    have owned := registry.owned s_mem
    rw [← same, registry.owned s'_mem] at owned
    exact other (Option.some.inj owned).symm

theorem IsFiled.handlesAgree (filed : h.IsFiled) (registry : h.IsRegistry) : h.HandlesAgree where
  nodup := filed.nodup_handles registry
  owner_iff handle owner := by
    constructor
    · intro found
      obtain ⟨s, mem, rfl⟩ := registry.listed found
      exact ⟨s.listener, filter_key_eq_singleton (filed.nodup_handles registry)
        (filed.mem_entries.2 mem)⟩
    · rintro ⟨listener, alone⟩
      have mem : (owner, ⟨handle, listener⟩) ∈ h.entries.filter (·.2.handle = handle) :=
        alone ▸ List.mem_singleton.2 rfl
      exact registry.owned (filed.mem_entries.1 (List.mem_of_mem_filter mem))
  owner_mem handle owner found := filed.owner_mem found
  list_mem handle owner found := by
    obtain ⟨s, mem, -⟩ := registry.listed found
    by_contra absent
    rw [listenersAt, (Ledger.get?_eq_none_iff _ _).2 absent] at mem
    cases mem

/-! ## Cancellations -/

/-- Where only the list of a key has entries that a filter refuses, the filter may be applied to
this list alone. -/
theorem flatMap_enter_filter {lists : List (Node ν × List (Subscription κ))}
    (nodup : (lists.map Prod.fst).Nodup) {keep : Subscription κ → Bool}
    (others : ∀ list ∈ lists, list.1 ≠ owner → ∀ s ∈ list.2, keep s = true) :
    (Ledger.enter owner (((lists.lookup owner).getD []).filter keep) lists).flatMap
        (fun list => list.2.map (list.1, ·)) =
      (lists.flatMap fun list => list.2.map (list.1, ·)).filter (keep ·.2) := by
  induction lists with
  | nil => rfl
  | cons list rest ih =>
      obtain ⟨m, subscriptions⟩ := list
      obtain ⟨fresh, nodup⟩ := List.nodup_cons.1 nodup
      have rest_others : ∀ list ∈ rest, list.1 ≠ owner → ∀ s ∈ list.2, keep s = true :=
        fun list mem => others list (List.mem_cons_of_mem _ mem)
      rw [Ledger.enter, List.flatMap_cons, List.filter_append]
      split
      · next here =>
          obtain rfl : m = owner := here
          have kept : (rest.flatMap fun list => list.2.map (list.1, ·)).filter (keep ·.2) =
              rest.flatMap fun list => list.2.map (list.1, ·) := by
            refine List.filter_eq_self.2 fun entry mem => ?_
            obtain ⟨list, list_mem, mem⟩ := List.mem_flatMap.1 mem
            obtain ⟨s, s_mem, rfl⟩ := List.mem_map.1 mem
            refine rest_others list list_mem (fun same => fresh ?_) s s_mem
            exact List.mem_map.2 ⟨list, list_mem, same⟩
          rw [List.flatMap_cons, List.lookup_cons_self, kept, List.filter_map]
          rfl
      · next elsewhere =>
          have kept : (subscriptions.map (m, ·)).filter (keep ·.2) = subscriptions.map (m, ·) := by
            refine List.filter_eq_self.2 fun entry mem => ?_
            obtain ⟨s, s_mem, rfl⟩ := List.mem_map.1 mem
            exact others _ List.mem_cons_self elsewhere s s_mem
          have later : ((m, subscriptions) :: rest).lookup owner = rest.lookup owner := by
            rw [List.lookup_cons, beq_false_of_ne (Ne.symm elsewhere)]
          rw [List.flatMap_cons, kept, later, ih nodup rest_others]

/-- A handle with an owner is cancelled, and nothing else is. -/
theorem IsRegistry.exists_cancels (registry : h.IsRegistry) (filed : h.IsFiled)
    (owned : h.owners.get? handle = some owner) :
    ∃ h', h.cancel? handle = some h' ∧ h.Cancels h' handle owner := by
  obtain ⟨h', cancelled⟩ : ∃ h', h.cancel? handle = some h' := by
    rw [cancel?, owned]
    exact ⟨_, rfl⟩
  have listeners := listenersAt_of_cancel? owned cancelled
  have nodes := Change.sameNodes_of_cancel? cancelled
  obtain ⟨owner', owned', rfl⟩ := cancel?_eq_some cancelled
  obtain rfl : owner' = owner := Option.some.inj (owned'.symm.trans owned)
  refine ⟨_, cancelled, ?_, ?_, fun n elsewhere => ?_, fun other => ?_, nodes, rfl⟩
  · have others : ∀ list ∈ h.listeners.entries, list.1 ≠ owner' → ∀ s ∈ list.2,
        decide (s.handle ≠ handle) = true := by
      rintro ⟨m, list⟩ list_mem elsewhere s mem
      rw [← filed.listenersAt_eq list_mem] at mem
      refine decide_eq_true fun same => elsewhere ?_
      have found := registry.owned mem
      rw [same, owned] at found
      exact (Option.some.inj found).symm
    exact flatMap_enter_filter filed.keys_nodup others
  · obtain ⟨s, mem, rfl⟩ := registry.listed owned
    obtain ⟨before, after, split⟩ := List.append_of_mem mem
    have ordered := registry.ordered owner'
    rw [split] at ordered
    obtain ⟨-, rest_ordered, before_lt⟩ := List.pairwise_append.1 ordered
    have before_kept : before.filter (·.handle ≠ s.handle) = before :=
      List.filter_eq_self.2 fun x x_mem =>
        decide_eq_true (Nat.ne_of_lt (before_lt x x_mem s List.mem_cons_self))
    have after_kept : after.filter (·.handle ≠ s.handle) = after :=
      List.filter_eq_self.2 fun x x_mem =>
        decide_eq_true (Nat.ne_of_gt ((List.pairwise_cons.1 rest_ordered).1 x x_mem))
    refine ⟨before, s.listener, after, split, ?_⟩
    rw [listeners, if_pos rfl, split, List.filter_append, before_kept,
      List.filter_cons_of_neg (by simp), after_kept]
  · rw [listeners, if_neg elsewhere]
  · rw [Ledger.get?_erase]

/-- An integer that is no handle with an owner is refused. -/
theorem unsubscribe_of_dead {i : ℤ}
    (dead : ∀ handle : ℕ, i = handle → h.owners.get? handle = none) :
    h.unsubscribe (.int i) = .error (.invalid (.unknownSubscription (.int i))) := by
  rcases lt_or_ge i 0 with negative | natural
  · have no_number : handleOf (.int i) = .ok none := by
      rw [handleOf, if_neg (Int.not_le.2 negative)]
    rw [unsubscribe, no_number]
    rfl
  · obtain ⟨handle, rfl⟩ := Int.eq_ofNat_of_zero_le natural
    rw [unsubscribe_natCast, cancel?, dead handle rfl]

end Hierarchy

/-! ## Handles of a run -/

namespace Session

variable {ν κ : Type}

/-- The handles of which a signal tells: that of a callback, or that with which a pipeline was
opened. -/
def handlesOf (s : Session ν κ) : Signal ν κ → List ℕ
  | .subscribed handle => [handle]
  | .opened number => (s.pipelines[number]?.bind (·.handle)).toList
  | _ => []

variable [DecidableEq ν] [DecidableEq κ]

/-- The handles that a command is granted. -/
def granted (s : Session ν κ) (command : Command ν κ) : List ℕ :=
  (s.act command).1.handlesOf (s.act command).2

/-- The handles that commands are granted, in order. -/
def grantedIn (s : Session ν κ) : List (Command ν κ) → List ℕ
  | [] => []
  | command :: commands => s.granted command ++ (s.act command).1.grantedIn commands

variable {s s' : Session ν κ} {command : Command ν κ} {handle : ℕ}

/-- What a command does to the handles: it is granted none and makes none live, or it subscribes a
listener and is granted the next one. -/
inductive Grants (s : Session ν κ) (command : Command ν κ) : Prop
  | none (granted : s.granted command = [])
      (next : (s.act command).1.hierarchy.nextHandle = s.hierarchy.nextHandle)
      (owners : ∀ handle owner, (s.act command).1.hierarchy.owners.get? handle = some owner →
        s.hierarchy.owners.get? handle = some owner)
  | next {listener : Listener κ} {n : Node ν}
      (granted : s.granted command = [s.hierarchy.nextHandle])
      (accepted : s.hierarchy.subscribe listener n =
        .ok (s.hierarchy.nextHandle, (s.act command).1.hierarchy))

namespace Grants

theorem of_raised {e : Error} (acted : s.act command = (s', .raised e))
    (same : s'.hierarchy = s.hierarchy) : s.Grants command := by
  refine .none (by rw [granted, acted]; rfl) ?_ ?_ <;> rw [acted, same]
  exact fun _ _ => id

theorem of_proceed (acted : s.act command = s'.proceed)
    (next : s'.hierarchy.nextHandle = s.hierarchy.nextHandle)
    (owners : s'.hierarchy.owners = s.hierarchy.owners) : s.Grants command := by
  refine .none ?_ ?_ ?_
  · rw [granted, acted, proceed]
    split
    · rfl
    · split <;> rfl
  · rw [acted, hierarchy_proceed, next]
  · rw [acted, hierarchy_proceed, owners]
    exact fun _ _ => id

theorem of_update (pipeline : ℕ) (result : Node ν)
    (acted : s.act command = s.update pipeline result) : s.Grants command := by
  rw [update, deliver] at acted
  exact .of_proceed acted rfl rfl

theorem of_cancel? (acted : s.act command = (s', .returned))
    (cancelled : s.hierarchy.cancel? handle = some s'.hierarchy) : s.Grants command := by
  obtain ⟨owner, -, hierarchy⟩ := Hierarchy.cancel?_eq_some cancelled
  refine .none (by rw [granted, acted]; rfl) ?_ ?_ <;> rw [acted, hierarchy]
  intro other owner found
  rw [Ledger.get?_erase] at found
  split at found
  · cases found
  · exact found

theorem of_subscribe {listener : Listener κ} {n : Node ν} {signal : Signal ν κ}
    (acted : s.act command = (s', signal))
    (accepted : s.hierarchy.subscribe listener n = .ok (handle, s'.hierarchy))
    (told : s'.handlesOf signal = [handle]) : s.Grants command := by
  obtain ⟨-, rfl, -⟩ := Hierarchy.subscribe_eq_ok accepted
  refine .next ?_ (by rw [acted]; exact accepted)
  rw [granted, acted]
  exact told

end Grants

/-- Every command does one of these to the handles. -/
theorem grants_act (s : Session ν κ) (command : Command ν κ) : s.Grants command := by
  cases command with
  | attach child parent =>
      cases attached : s.hierarchy.attach child parent with
      | error e => exact .of_raised (by rw [act, attach, attached]) rfl
      | ok result =>
          obtain ⟨p, h'⟩ := result
          obtain ⟨-, -, -, rfl⟩ := Hierarchy.attach_eq_ok attached
          have acted : s.act (.attach child parent) =
              deliver { s with hierarchy := s.hierarchy.graft child p }
                (notice (s.hierarchy.graft child p) child p) := by
            rw [act, attach, attached]
          exact .of_proceed acted rfl rfl
  | subscribe callback node =>
      cases subscribed : s.hierarchy.subscribe (.callback callback) node with
      | error e => exact .of_raised (by rw [act, subscribe, subscribed]) rfl
      | ok result => exact .of_subscribe (by rw [act, subscribe, subscribed]) subscribed rfl
  | unsubscribe value =>
      cases cancelled : s.hierarchy.unsubscribe value with
      | error e => exact .of_raised (by rw [act, unsubscribe, cancelled]) rfl
      | ok h' =>
          obtain ⟨handle, found⟩ := Hierarchy.unsubscribe_eq_ok cancelled
          exact .of_cancel? (by rw [act, unsubscribe, cancelled]) found
  | openPipeline evaluators =>
      cases subscribed : s.hierarchy.subscribe (.pipeline s.pipelines.length) .null with
      | error e =>
          have acted : s.act (.openPipeline evaluators) = (s, .raised e) := by
            simp only [act, openPipeline, subscribed]
          exact .of_raised acted rfl
      | ok result =>
          have acted : s.act (.openPipeline evaluators) =
              ({ s with
                  hierarchy := result.2
                  pipelines := s.pipelines ++ [⟨evaluators, some result.1⟩] },
                .opened s.pipelines.length) := by
            simp only [act, openPipeline, subscribed]
          exact .of_subscribe acted subscribed (by simp [handlesOf])
  | run pipeline => exact .of_update pipeline s.hierarchy.root rfl
  | update pipeline result => exact .of_update pipeline result rfl
  | close pipeline =>
      have closed : s.act (.close pipeline) = s.close pipeline := rfl
      rw [close] at closed
      split at closed
      · next evaluators handle opened =>
          rw [Hierarchy.unsubscribe_natCast] at closed
          cases cancelled : s.hierarchy.cancel? handle with
          | none =>
              rw [cancelled] at closed
              exact .of_raised closed rfl
          | some h' =>
              rw [cancelled] at closed
              exact .of_cancel? closed cancelled
      · refine .none (by rw [granted, closed]; rfl) ?_ ?_ <;> rw [closed]
        exact fun _ _ => id
  | finish => exact .of_proceed rfl rfl rfl
  | fail e => exact .of_raised rfl rfl

/-- The handles that a run is granted are numbered one after the other. -/
theorem grantedIn_eq_range' (s : Session ν κ) (commands : List (Command ν κ)) :
    s.grantedIn commands =
      List.range' s.hierarchy.nextHandle (s.grantedIn commands).length := by
  induction commands generalizing s with
  | nil => rfl
  | cons command commands ih =>
      have later := ih (s.act command).1
      cases s.grants_act command with
      | none nothing next owners =>
          rw [grantedIn, nothing, List.nil_append, ← next]
          exact later
      | next one accepted =>
          obtain ⟨-, -, hierarchy⟩ := Hierarchy.subscribe_eq_ok accepted
          have next : (s.act command).1.hierarchy.nextHandle = s.hierarchy.nextHandle + 1 := by
            rw [hierarchy]
          rw [next] at later
          rw [grantedIn, one, List.singleton_append, List.length_cons, List.range'_succ, ← later]

/-- A handle that is live after a run was live before, or the run was granted it. -/
theorem live_of_play {commands : List (Command ν κ)} {owner : Node ν}
    (found : (s.play commands).hierarchy.owners.get? handle = some owner) :
    s.hierarchy.owners.get? handle = some owner ∨ handle ∈ s.grantedIn commands := by
  induction commands generalizing s with
  | nil => exact .inl found
  | cons command commands ih =>
      rw [grantedIn]
      rcases ih found with live | later
      · cases s.grants_act command with
        | none nothing next owners => exact .inl (owners handle owner live)
        | next one accepted =>
            obtain ⟨-, -, hierarchy⟩ := Hierarchy.subscribe_eq_ok accepted
            rw [hierarchy, Ledger.get?_put] at live
            split at live
            · next new =>
                refine .inr (List.mem_append_left _ ?_)
                rw [one, new]
                exact List.mem_singleton.2 rfl
            · exact .inl live
      · exact .inr (List.mem_append_right _ later)

theorem isFiled_play (sound : s.Sound) (filed : s.hierarchy.IsFiled)
    (commands : List (Command ν κ)) : (s.play commands).hierarchy.IsFiled := by
  induction commands generalizing s with
  | nil => exact filed
  | cons command commands ih =>
      exact ih (sound.act command) (filed.change sound.tree (s.change_act command))

/-- Handles are sound. In every state that commands lead to from a root, those of listeners and of
calls that fail among them, the owners of the handles and the entries of the lists agree. The
handles that the run was granted ascend, so that none is granted twice, and the live ones are among
them. The cancellation of a live handle succeeds, takes its entry out of the list of its owner and
changes nothing else: all other entries stay in their lists and in order, and the deliveries under
way go on. Every other integer is refused as an unknown subscription, and nothing is changed. -/
theorem play_ofRoot_handles_agree (root : Node ν) (commands : List (Command ν κ)) :
    let s := (ofRoot root : Session ν κ).play commands
    let granted := (ofRoot root : Session ν κ).grantedIn commands
    s.hierarchy.HandlesAgree ∧ granted.Pairwise (· < ·) ∧
      (∀ handle owner, s.hierarchy.owners.get? handle = some owner →
        handle ∈ granted ∧ ∃ h',
          s.act (.unsubscribe (.int handle)) = ({ s with hierarchy := h' }, .returned) ∧
          s.hierarchy.Cancels h' handle owner) ∧
      ∀ i : ℤ, (∀ handle : ℕ, i = handle → s.hierarchy.owners.get? handle = none) →
        s.act (.unsubscribe (.int i)) =
          (s, .raised (.invalid (.unknownSubscription (.int i)))) := by
  intro s granted
  have registered : s.Registered := (registered_ofRoot root).play commands
  have filed : s.hierarchy.IsFiled :=
    isFiled_play (sound_ofRoot root) (Hierarchy.isFiled_ofRoot root) commands
  refine ⟨filed.handlesAgree registered.registry, ?_, fun handle owner owned => ⟨?_, ?_⟩,
    fun i dead => ?_⟩
  · have numbered : granted = List.range' 1 granted.length := grantedIn_eq_range' _ commands
    rw [numbered]
    exact List.pairwise_lt_range' 1 Nat.one_pos
  · exact (live_of_play owned).resolve_left nofun
  · obtain ⟨h', cancelled, cancels⟩ := registered.registry.exists_cancels filed owned
    refine ⟨h', ?_, cancels⟩
    rw [act, unsubscribe, Hierarchy.unsubscribe_natCast, cancelled]
  · rw [act, unsubscribe, Hierarchy.unsubscribe_of_dead dead]

/-- A callback that is subscribed twice reacts to a notification: it subscribes once more at the new
node, cancels its first subscription and fails. -/
theorem play_ofRoot_handles_agree_nested :
    let root : Node ℕ := .object 0
    let commands : List (Command ℕ String) := [.subscribe "watch" .null, .subscribe "watch" .null,
      .attach (.object 1) .null, .subscribe "watch" (.object 1), .unsubscribe (.int 1),
      .fail (.raised "RuntimeError" "boom")]
    let s := (ofRoot root : Session ℕ String).play commands
    s.hierarchy.entries = [(root, ⟨2, .callback "watch"⟩), (.object 1, ⟨3, .callback "watch"⟩)] ∧
      (∃ h', s.act (.unsubscribe (.int 2)) = ({ s with hierarchy := h' }, .returned) ∧
        h'.entries = [(.object 1, ⟨3, .callback "watch"⟩)]) ∧
      s.act (.unsubscribe (.int 1)) =
        (s, .raised (.invalid (.unknownSubscription (.int 1)))) := by
  intro root commands s
  obtain ⟨-, -, live, dead⟩ := play_ofRoot_handles_agree root commands
  have second : s.hierarchy.owners.get? 2 = some root := by decide
  obtain ⟨-, h', cancelled, cancels⟩ := live 2 root second
  have before : s.hierarchy.entries =
      [(root, ⟨2, .callback "watch"⟩), (.object 1, ⟨3, .callback "watch"⟩)] := by decide
  have after : h'.entries = [(.object 1, ⟨3, .callback "watch"⟩)] := by
    rw [cancels.entries, before]
    decide
  refine ⟨before, ⟨h', cancelled, after⟩, dead 1 fun handle same => ?_⟩
  rw [← Int.ofNat.inj same]
  rfl

end Session

end PointPattern
