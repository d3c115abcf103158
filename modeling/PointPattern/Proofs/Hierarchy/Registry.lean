/-
# The registry of subscriptions

A subscription is live as long as its handle has an owner. The list at a node holds the
live subscriptions of this node and no others, and it holds them in the order of their
handles, which is the order in which they were made.
-/

import PointPattern.Proofs.Hierarchy.Runs

namespace PointPattern

namespace Hierarchy

variable {ν κ : Type} [DecidableEq ν]

/-- The list at a node is the list of its live subscriptions, the oldest first. -/
structure IsRegistry (h : Hierarchy ν κ) : Prop where
  owned : ∀ {n s}, s ∈ h.listenersAt n → h.owners.get? s.handle = some n
  listed : ∀ {handle n}, h.owners.get? handle = some n → ∃ s ∈ h.listenersAt n, s.handle = handle
  ordered : ∀ n, (h.listenersAt n).Pairwise fun s s' => s.handle < s'.handle
  fresh : ∀ {handle n}, h.owners.get? handle = some n → handle < h.nextHandle

variable {h h' : Hierarchy ν κ} {n : Node ν}

theorem isRegistry_ofRoot (root : Node ν) : (ofRoot root : Hierarchy ν κ).IsRegistry where
  owned mem := by cases mem
  listed found := by cases found
  ordered _ := List.Pairwise.nil
  fresh found := by cases found

/-- The listeners after a subscription. -/
theorem listenersAt_of_subscribe {listener : κ} {handle : ℕ}
    (accepted : h.subscribe listener n = .ok (handle, h')) (m : Node ν) :
    h'.listenersAt m =
      if m = h.orRoot n then h.listenersAt m ++ [⟨h.nextHandle, listener⟩]
      else h.listenersAt m := by
  obtain ⟨-, -, rfl⟩ := subscribe_eq_ok accepted
  rw [listenersAt, Ledger.get?_put]
  split
  · next here => rw [here]; rfl
  · rfl

/-- The listeners after a cancellation. -/
theorem listenersAt_of_cancel? {handle : ℕ} {owner : Node ν}
    (owned : h.owners.get? handle = some owner) (cancelled : h.cancel? handle = some h')
    (m : Node ν) :
    h'.listenersAt m =
      if m = owner then (h.listenersAt m).filter (·.handle ≠ handle) else h.listenersAt m := by
  obtain ⟨owner', owned', rfl⟩ := cancel?_eq_some cancelled
  rw [owned, Option.some.injEq] at owned'
  subst owned'
  rw [listenersAt, Ledger.get?_put]
  split
  · next here => rw [here]; rfl
  · rfl

namespace IsRegistry

variable (registry : h.IsRegistry)

include registry

theorem handle_lt {s : Subscription κ} (mem : s ∈ h.listenersAt n) : s.handle < h.nextHandle :=
  registry.fresh (registry.owned mem)

theorem subscribe {listener : κ} {handle : ℕ}
    (accepted : h.subscribe listener n = .ok (handle, h')) : h'.IsRegistry := by
  have listeners := listenersAt_of_subscribe accepted
  obtain ⟨-, -, rfl⟩ := subscribe_eq_ok accepted
  constructor
  case owned =>
    intro m s mem
    rw [listeners] at mem
    rw [Ledger.get?_put]
    split at mem
    · next here =>
        rcases List.mem_append.1 mem with old | new
        · rw [if_neg (Nat.ne_of_lt (registry.handle_lt old))]
          exact registry.owned old
        · rw [List.mem_singleton.1 new, if_pos rfl, here]
    · rw [if_neg (Nat.ne_of_lt (registry.handle_lt mem))]
      exact registry.owned mem
  case listed =>
    intro handle m found
    rw [Ledger.get?_put] at found
    rw [listeners]
    split at found
    · next new =>
        cases found
        rw [if_pos rfl]
        exact ⟨_, List.mem_append_right _ (List.mem_singleton.2 rfl), new.symm⟩
    · obtain ⟨s, mem, same⟩ := registry.listed found
      refine ⟨s, ?_, same⟩
      split
      · exact List.mem_append_left _ mem
      · exact mem
  case ordered =>
    intro m
    rw [listeners]
    split
    · refine List.pairwise_append.2 ⟨registry.ordered m, List.pairwise_singleton _ _, ?_⟩
      intro s mem s' new
      rw [List.mem_singleton.1 new]
      exact registry.handle_lt mem
    · exact registry.ordered m
  case fresh =>
    intro handle m found
    rw [Ledger.get?_put] at found
    split at found
    · next new => exact new ▸ Nat.lt_succ_self _
    · exact Nat.lt_succ_of_lt (registry.fresh found)

theorem cancel {handle : ℕ} (cancelled : h.cancel? handle = some h') : h'.IsRegistry := by
  obtain ⟨owner, owned, h'_eq⟩ := cancel?_eq_some cancelled
  have listeners := listenersAt_of_cancel? owned cancelled
  subst h'_eq
  constructor
  case owned =>
    intro m s mem
    rw [listeners] at mem
    rw [Ledger.get?_erase]
    split at mem
    · obtain ⟨mem, other⟩ := List.mem_filter.1 mem
      rw [if_neg (of_decide_eq_true other)]
      exact registry.owned mem
    · next elsewhere =>
        have found := registry.owned mem
        rw [if_neg fun same => ?_]
        · exact found
        · rw [same, owned, Option.some.injEq] at found
          exact elsewhere found.symm
  case listed =>
    intro other m found
    rw [Ledger.get?_erase] at found
    split at found
    · cases found
    · next different =>
        obtain ⟨s, mem, rfl⟩ := registry.listed found
        refine ⟨s, ?_, rfl⟩
        rw [listeners]
        split
        · exact List.mem_filter.2 ⟨mem, decide_eq_true different⟩
        · exact mem
  case ordered =>
    intro m
    rw [listeners]
    split
    · exact (registry.ordered m).filter _
    · exact registry.ordered m
  case fresh =>
    intro other m found
    rw [Ledger.get?_erase] at found
    split at found
    · cases found
    · exact registry.fresh found

end IsRegistry

theorem Change.isRegistry (change : h.Change h') (registry : h.IsRegistry) : h'.IsRegistry := by
  cases change with
  | none => exact registry
  | grafted present absent => exact ⟨registry.owned, registry.listed, registry.ordered, registry.fresh⟩
  | subscribed accepted => exact registry.subscribe accepted
  | cancelled cancelled => exact registry.cancel cancelled

end Hierarchy

/-! ## Pipelines as listeners -/

namespace Session

variable {ν κ : Type}

/-- A listener is a callback, or a pipeline that was opened. -/
def Knows (s : Session ν κ) : Listener κ → Prop
  | .callback _ => True
  | .pipeline number => number < s.pipelines.length

/-- The root is the same, and the pipelines that were opened have the same evaluators. -/
structure Extends (s s' : Session ν κ) : Prop where
  root : s'.hierarchy.root = s.hierarchy.root
  length_le : s.pipelines.length ≤ s'.pipelines.length
  evaluators : ∀ number < s.pipelines.length,
    (s'.pipelines[number]?).map (·.evaluators) = (s.pipelines[number]?).map (·.evaluators)

namespace Extends

variable {s s' : Session ν κ}

theorem of_pipelines_eq (root : s'.hierarchy.root = s.hierarchy.root)
    (pipelines : s'.pipelines = s.pipelines) : s.Extends s' where
  root
  length_le := Nat.le_of_eq (congrArg List.length pipelines.symm)
  evaluators number _ := by rw [pipelines]

theorem knows (extension : s.Extends s') {listener : Listener κ} (known : s.Knows listener) :
    s'.Knows listener := by
  cases listener with
  | callback callback => exact trivial
  | pipeline number => exact Nat.lt_of_lt_of_le known extension.length_le

/-- Known listeners go on making the same calls. -/
theorem callsOf_eq (extension : s.Extends s') {listener : Listener κ} (known : s.Knows listener)
    (child parent : Node ν) :
    s'.callsOf child parent listener = s.callsOf child parent listener := by
  cases listener with
  | callback callback => rfl
  | pipeline number =>
      have same := extension.evaluators number known
      simp only [callsOf, evaluations, extension.root]
      cases found : s.pipelines[number]? with
      | none =>
          rw [found] at same
          rw [Option.map_eq_none_iff.1 same]
      | some p =>
          rw [found] at same
          obtain ⟨p', found', same⟩ := Option.map_eq_some_iff.1 same
          rw [found']
          dsimp only
          rw [same]

end Extends

variable [DecidableEq ν]

/-- The subscriptions are registered, and only pipelines that were opened subscribe. -/
structure Registered (s : Session ν κ) : Prop where
  registry : s.hierarchy.IsRegistry
  known : ∀ {n subscription}, subscription ∈ s.hierarchy.listenersAt n →
    s.Knows subscription.listener

theorem registered_ofRoot (root : Node ν) : (ofRoot root : Session ν κ).Registered :=
  ⟨Hierarchy.isRegistry_ofRoot root, fun mem => by cases mem⟩

variable {s s' : Session ν κ}

theorem Edit.extends (edit : s.Edit s') : s.Extends s' := by
  cases edit with
  | none hierarchy pipelines => exact .of_pipelines_eq (by rw [hierarchy]) pipelines
  | grafted present absent hierarchy pipelines =>
      exact .of_pipelines_eq (by rw [hierarchy]; rfl) pipelines
  | subscribed accepted pipelines =>
      exact .of_pipelines_eq (Hierarchy.Change.sameNodes_of_subscribe accepted).root pipelines
  | cancelled cancelled pipelines =>
      exact .of_pipelines_eq (Hierarchy.Change.sameNodes_of_cancel? cancelled).root pipelines
  | opened accepted pipelines =>
      refine ⟨(Hierarchy.Change.sameNodes_of_subscribe accepted).root, ?_, fun number inside => ?_⟩
      · rw [pipelines, List.length_append]
        exact Nat.le_add_right _ _
      · rw [pipelines, List.getElem?_append_left inside]
  | @closed number handle evaluators own opened cancelled pipelines =>
      refine ⟨(Hierarchy.Change.sameNodes_of_cancel? cancelled).root, ?_, fun other inside => ?_⟩
      · exact Nat.le_of_eq (by rw [pipelines, List.length_set])
      · rw [pipelines]
        by_cases same : number = other
        · subst same
          rw [List.getElem?_set_self inside, opened]
          rfl
        · rw [List.getElem?_set_ne same]

variable [DecidableEq κ]

theorem Registered.act (registered : s.Registered) (command : Command ν κ) :
    (s.act command).1.Registered := by
  have edit := s.edit_act command
  have extension := edit.extends
  refine ⟨(s.change_act command).isRegistry registered.registry, fun {n subscription} mem => ?_⟩
  generalize (s.act command).1 = s' at *
  have old (mem : subscription ∈ s.hierarchy.listenersAt n) : s'.Knows subscription.listener :=
    extension.knows (registered.known mem)
  have of_cancel? {handle : ℕ} (cancelled : s.hierarchy.cancel? handle = some s'.hierarchy) :
      s'.Knows subscription.listener := by
    obtain ⟨owner, owned, -⟩ := Hierarchy.cancel?_eq_some cancelled
    rw [Hierarchy.listenersAt_of_cancel? owned cancelled] at mem
    split at mem
    · exact old (List.mem_of_mem_filter mem)
    · exact old mem
  have of_subscribe {listener : Listener κ} {m : Node ν} {handle : ℕ}
      (accepted : s.hierarchy.subscribe listener m = .ok (handle, s'.hierarchy))
      (new : s'.Knows listener) : s'.Knows subscription.listener := by
    rw [Hierarchy.listenersAt_of_subscribe accepted] at mem
    split at mem
    · rcases List.mem_append.1 mem with mem | mem
      · exact old mem
      · rw [List.mem_singleton.1 mem]
        exact new
    · exact old mem
  cases edit with
  | none hierarchy pipelines | grafted present absent hierarchy pipelines =>
      rw [hierarchy] at mem
      exact old mem
  | subscribed accepted pipelines => exact of_subscribe accepted trivial
  | cancelled cancelled pipelines => exact of_cancel? cancelled
  | opened accepted pipelines =>
      apply of_subscribe accepted
      rw [Knows, pipelines, List.length_append]
      exact Nat.lt_succ_self _
  | closed opened cancelled pipelines => exact of_cancel? cancelled

theorem Registered.play (registered : s.Registered) (commands : List (Command ν κ)) :
    (s.play commands).Registered := by
  induction commands generalizing s with
  | nil => exact registered
  | cons command commands ih => exact ih (registered.act command)

end Session

end PointPattern
