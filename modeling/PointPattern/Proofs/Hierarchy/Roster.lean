/-
# Pipelines that listen

A pipeline listens at the root, under the handle that it holds from its opening on until it is
closed. No other listener ever has this handle, so a pipeline that is closed leaves all others
alone. Unless its subscription is cancelled under its hands, a pipeline listens exactly as long as
it is open: from the command that opens it until the first command that closes it.
-/

import PointPattern.Proofs.Hierarchy.Delivery
import Mathlib.Data.List.Induction

namespace PointPattern

variable {ν κ : Type}

/-- The number of a pipeline among the listeners. -/
def Listener.pipeline? : Listener κ → Option ℕ
  | .callback _ => none
  | .pipeline number => some number

theorem Listener.pipeline?_eq_some {listener : Listener κ} {number : ℕ} :
    listener.pipeline? = some number ↔ listener = .pipeline number := by
  cases listener <;> simp [pipeline?]

namespace Hierarchy

variable [DecidableEq ν] {h h' : Hierarchy ν κ} {n m : Node ν} {listener : κ} {handle : ℕ}
variable {x : Subscription κ}

theorem mem_listenersAt_of_subscribe (accepted : h.subscribe listener n = .ok (handle, h')) :
    x ∈ h'.listenersAt m ↔
      x ∈ h.listenersAt m ∨ m = h.orRoot n ∧ x = ⟨h.nextHandle, listener⟩ := by
  rw [listenersAt_of_subscribe accepted]
  split
  · next here => simp [here]
  · next elsewhere => simp [elsewhere]

/-- A cancellation takes away the subscription with the handle and no other. -/
theorem IsRegistry.mem_listenersAt_of_cancel? (registry : h.IsRegistry)
    (cancelled : h.cancel? handle = some h') :
    x ∈ h'.listenersAt m ↔ x ∈ h.listenersAt m ∧ x.handle ≠ handle := by
  obtain ⟨owner, owned, -⟩ := cancel?_eq_some cancelled
  rw [listenersAt_of_cancel? owned cancelled]
  split
  · simp
  · next elsewhere =>
      have other (mem : x ∈ h.listenersAt m) : x.handle ≠ handle := by
        intro same
        have here := registry.owned mem
        rw [same, owned] at here
        exact elsewhere (Option.some.inj here).symm
      exact ⟨fun mem => ⟨mem, other mem⟩, And.left⟩

/-- Everybody can subscribe at the root. -/
theorem IsTree.subscribe_null (tree : h.IsTree) (listener : κ) :
    ∃ h', h.subscribe listener .null = .ok (h.nextHandle, h') := by
  have root : h.orRoot .null = h.root := if_pos rfl
  have contained : h.contains h.root = true := by simp [contains, tree.root_mem]
  simp only [subscribe, find, root, if_pos contained]
  exact ⟨_, rfl⟩

/-- A number cancels the subscription with this handle. -/
theorem unsubscribe_natCast (h : Hierarchy ν κ) (handle : ℕ) :
    h.unsubscribe (.int handle) =
      match h.cancel? handle with
      | some h' => .ok h'
      | none => .error (.invalid (.unknownSubscription (.int handle))) := by
  have number : handleOf (.int handle) = .ok (some handle) := by simp [handleOf]
  rw [unsubscribe, number]
  cases cancelled : h.cancel? handle <;>
    simp only [bind, Except.bind, Option.bind_some, cancelled] <;> rfl

end Hierarchy

namespace Session

variable [DecidableEq ν] {s s' : Session ν κ} {number handle : ℕ} {evaluators : List κ}

/-! ## The roster -/

/-- The pipelines that listen at the root, in order of subscription. -/
def listening (s : Session ν κ) : List ℕ :=
  (s.hierarchy.listenersAt s.hierarchy.root).filterMap (·.listener.pipeline?)

theorem SameListeners.listening_eq (same : s.SameListeners s') : s'.listening = s.listening := by
  rw [listening, listening, same.root, same.listenersAt_eq]

/-- The evaluators of a pipeline. -/
def evaluatorsOf (s : Session ν κ) (number : ℕ) : List κ :=
  ((s.pipelines[number]?).map (·.evaluators)).getD []

/-- The pipelines that listen at the root, with their evaluators. -/
def roster (s : Session ν κ) : List (ℕ × List κ) :=
  s.listening.map fun number => (number, s.evaluatorsOf number)

theorem mem_listening :
    number ∈ s.listening ↔
      ∃ x ∈ s.hierarchy.listenersAt s.hierarchy.root, x.listener = .pipeline number := by
  simp only [listening, List.mem_filterMap, Listener.pipeline?_eq_some]

theorem mem_roster :
    (number, evaluators) ∈ s.roster ↔
      number ∈ s.listening ∧ s.evaluatorsOf number = evaluators := by
  simp [roster]

/-- A pipeline that subscribes at the root listens after all others. -/
theorem listening_of_subscribe {listener : Listener κ} {n : Node ν}
    (accepted : s.hierarchy.subscribe listener n = .ok (handle, s'.hierarchy)) :
    s'.listening = s.listening ++
      if s.hierarchy.root = s.hierarchy.orRoot n then listener.pipeline?.toList else [] := by
  rw [listening, (Hierarchy.Change.sameNodes_of_subscribe accepted).root,
    Hierarchy.listenersAt_of_subscribe accepted]
  split
  · rw [List.filterMap_append]
    cases listener <;> rfl
  · exact (List.append_nil _).symm

omit [DecidableEq ν] in
theorem evaluations_eq (s : Session ν κ) (number : ℕ) (result : Node ν) :
    s.evaluations number result =
      (s.evaluatorsOf number).map fun evaluator => .evaluate evaluator s.hierarchy.root result := by
  rw [evaluations, evaluatorsOf]
  cases s.pipelines[number]? <;> rfl

omit [DecidableEq ν] in
theorem Extends.evaluatorsOf_eq (extension : s.Extends s') (known : number < s.pipelines.length) :
    s'.evaluatorsOf number = s.evaluatorsOf number := by
  rw [evaluatorsOf, evaluatorsOf, extension.evaluators number known]

/-- A pipeline listens at the root alone, under the handle that it holds, and the older one listens
first. -/
structure Enlists (s : Session ν κ) : Prop where
  sound : s.Sound
  registered : s.Registered
  issued : ∀ {number handle : ℕ} {evaluators : List κ},
    s.pipelines[number]? = some ⟨evaluators, some handle⟩ → handle < s.hierarchy.nextHandle
  holds : ∀ {n : Node ν} {x : Subscription (Listener κ)} {number : ℕ},
    x ∈ s.hierarchy.listenersAt n →
      (x.listener = .pipeline number ↔
        ∃ evaluators, s.pipelines[number]? = some ⟨evaluators, some x.handle⟩)
  at_root : ∀ {n : Node ν} {x : Subscription (Listener κ)} {number : ℕ},
    x ∈ s.hierarchy.listenersAt n → x.listener = .pipeline number → n = s.hierarchy.root
  ordered : s.listening.Pairwise (· < ·)

theorem enlists_ofRoot (root : Node ν) : (ofRoot root : Session ν κ).Enlists where
  sound := sound_ofRoot root
  registered := registered_ofRoot root
  issued held := by cases held
  holds mem := by cases mem
  at_root mem := by cases mem
  ordered := List.Pairwise.nil

namespace Enlists

variable (enlists : s.Enlists)

include enlists

theorem lt_length (mem : number ∈ s.listening) : number < s.pipelines.length := by
  obtain ⟨x, x_mem, is_pipeline⟩ := mem_listening.1 mem
  have known := enlists.registered.known x_mem
  rwa [is_pipeline] at known

/-- A pipeline that listens has a live subscription. -/
theorem exists_of_mem_listening (mem : number ∈ s.listening) :
    ∃ evaluators handle h', s.pipelines[number]? = some ⟨evaluators, some handle⟩ ∧
      s.hierarchy.cancel? handle = some h' := by
  obtain ⟨x, x_mem, is_pipeline⟩ := mem_listening.1 mem
  obtain ⟨evaluators, held⟩ := (enlists.holds x_mem).1 is_pipeline
  have owned := enlists.registered.registry.owned x_mem
  simp only [Hierarchy.cancel?]
  exact ⟨evaluators, x.handle, _, held, by rw [owned]⟩

theorem congr (same : s.SameListeners s') (sound : s'.Sound) (registered : s'.Registered) :
    s'.Enlists where
  sound
  registered
  issued held := by
    rw [same.pipelines] at held
    rw [same.nextHandle]
    exact enlists.issued held
  holds mem := by
    rw [same.listenersAt_eq] at mem
    rw [same.pipelines]
    exact enlists.holds mem
  at_root mem is_pipeline := by
    rw [same.listenersAt_eq] at mem
    rw [same.root]
    exact enlists.at_root mem is_pipeline
  ordered := by
    rw [same.listening_eq]
    exact enlists.ordered

/-- A new pipeline is younger than those that listen, so they stay in order. -/
theorem ordered_subscribe {listener : Listener κ} {n : Node ν}
    (accepted : s.hierarchy.subscribe listener n = .ok (handle, s'.hierarchy))
    (new : ∀ number, listener = .pipeline number → s.pipelines.length ≤ number) :
    s'.listening.Pairwise (· < ·) := by
  rw [listening_of_subscribe accepted]
  split
  · cases listener with
    | callback callback => exact (List.append_nil _).symm ▸ enlists.ordered
    | pipeline latest =>
        refine List.pairwise_append.2 ⟨enlists.ordered, List.pairwise_singleton _ _, ?_⟩
        intro number mem number' mem'
        obtain rfl := List.mem_singleton.1 mem'
        exact Nat.lt_of_lt_of_le (enlists.lt_length mem) (new number' rfl)
  · exact (List.append_nil _).symm ▸ enlists.ordered

/-- A listener subscribes that is no pipeline or a new one, which holds the new handle. -/
theorem subscribe {listener : Listener κ} {n : Node ν} (sound : s'.Sound)
    (registered : s'.Registered)
    (accepted : s.hierarchy.subscribe listener n = .ok (handle, s'.hierarchy))
    (held_iff : ∀ {number handle : ℕ} {evaluators : List κ},
      s'.pipelines[number]? = some ⟨evaluators, some handle⟩ ↔
        s.pipelines[number]? = some ⟨evaluators, some handle⟩ ∨
          handle = s.hierarchy.nextHandle ∧ listener = .pipeline number ∧
            s'.evaluatorsOf number = evaluators)
    (new : ∀ number, listener = .pipeline number →
      s.hierarchy.orRoot n = s.hierarchy.root ∧ s.pipelines.length ≤ number) :
    s'.Enlists := by
  have root := (Hierarchy.Change.sameNodes_of_subscribe accepted).root
  have next : s'.hierarchy.nextHandle = s.hierarchy.nextHandle + 1 := by
    obtain ⟨-, -, h'_eq⟩ := Hierarchy.subscribe_eq_ok accepted
    rw [h'_eq]
  have mem_iff {m : Node ν} {x : Subscription (Listener κ)} :=
    Hierarchy.mem_listenersAt_of_subscribe accepted (m := m) (x := x)
  constructor
  case sound => exact sound
  case registered => exact registered
  case issued =>
    intro number evaluators handle held
    rw [next]
    rcases held_iff.1 held with old | ⟨rfl, -, -⟩
    · exact Nat.lt_succ_of_lt (enlists.issued old)
    · exact Nat.lt_succ_self _
  case holds =>
    intro m x number mem
    rcases mem_iff.1 mem with old | ⟨-, rfl⟩
    · have earlier := enlists.registered.registry.handle_lt old
      rw [enlists.holds old]
      constructor
      · rintro ⟨evaluators, held⟩
        exact ⟨evaluators, held_iff.2 (.inl held)⟩
      · rintro ⟨evaluators, held⟩
        rcases held_iff.1 held with held | ⟨same, -⟩
        · exact ⟨evaluators, held⟩
        · exact absurd same (Nat.ne_of_lt earlier)
    · constructor
      · intro is_pipeline
        exact ⟨_, held_iff.2 (.inr ⟨rfl, is_pipeline, rfl⟩)⟩
      · rintro ⟨evaluators, held⟩
        rcases held_iff.1 held with held | ⟨-, is_pipeline, -⟩
        · exact absurd (enlists.issued held) (Nat.lt_irrefl _)
        · exact is_pipeline
  case at_root =>
    intro m x number mem is_pipeline
    rw [root]
    rcases mem_iff.1 mem with old | ⟨rfl, rfl⟩
    · exact enlists.at_root old is_pipeline
    · exact (new number is_pipeline).1
  case ordered =>
    exact enlists.ordered_subscribe accepted fun number is_pipeline => (new number is_pipeline).2

/-- A subscription is cancelled, and the pipeline that held its handle gives it up or not. -/
theorem cancel (sound : s'.Sound) (registered : s'.Registered)
    (cancelled : s.hierarchy.cancel? handle = some s'.hierarchy)
    (held_of : ∀ {number handle : ℕ} {evaluators : List κ},
      s'.pipelines[number]? = some ⟨evaluators, some handle⟩ →
        s.pipelines[number]? = some ⟨evaluators, some handle⟩)
    (held_of_ne : ∀ {number handle' : ℕ} {evaluators : List κ}, handle' ≠ handle →
      s.pipelines[number]? = some ⟨evaluators, some handle'⟩ →
        s'.pipelines[number]? = some ⟨evaluators, some handle'⟩) :
    s'.Enlists := by
  have registry := enlists.registered.registry
  have root := (Hierarchy.Change.sameNodes_of_cancel? cancelled).root
  have next : s'.hierarchy.nextHandle = s.hierarchy.nextHandle := by
    obtain ⟨owner, -, h'_eq⟩ := Hierarchy.cancel?_eq_some cancelled
    rw [h'_eq]
  constructor
  case sound => exact sound
  case registered => exact registered
  case issued =>
    intro number evaluators handle held
    rw [next]
    exact enlists.issued (held_of held)
  case holds =>
    intro n x number mem
    obtain ⟨old, other⟩ := (registry.mem_listenersAt_of_cancel? cancelled).1 mem
    rw [enlists.holds old]
    exact ⟨fun ⟨evaluators, held⟩ => ⟨evaluators, held_of_ne other held⟩,
      fun ⟨evaluators, held⟩ => ⟨evaluators, held_of held⟩⟩
  case at_root =>
    intro n x number mem is_pipeline
    rw [root]
    exact enlists.at_root ((registry.mem_listenersAt_of_cancel? cancelled).1 mem).1 is_pipeline
  case ordered =>
    obtain ⟨owner, owned, -⟩ := Hierarchy.cancel?_eq_some cancelled
    rw [listening, root, Hierarchy.listenersAt_of_cancel? owned cancelled]
    split
    · exact enlists.ordered.sublist (List.filter_sublist.filterMap _)
    · exact enlists.ordered

end Enlists

/-! ## Opening and closing -/

variable [DecidableEq κ]

/-- A pipeline can always be opened. -/
theorem act_openPipeline (tree : s.hierarchy.IsTree) (evaluators : List κ) :
    ∃ h', s.hierarchy.subscribe (.pipeline s.pipelines.length) .null =
        .ok (s.hierarchy.nextHandle, h') ∧
      s.act (.openPipeline evaluators) =
        ({ s with
            hierarchy := h'
            pipelines := s.pipelines ++ [⟨evaluators, some s.hierarchy.nextHandle⟩] },
          .opened s.pipelines.length) := by
  obtain ⟨h', accepted⟩ := tree.subscribe_null (.pipeline s.pipelines.length)
  refine ⟨h', accepted, ?_⟩
  rw [act, openPipeline]
  simp only [accepted]

/-- A pipeline with a live subscription is closed. -/
theorem act_close_of_cancel? {h' : Hierarchy ν (Listener κ)}
    (held : s.pipelines[number]? = some ⟨evaluators, some handle⟩)
    (cancelled : s.hierarchy.cancel? handle = some h') :
    s.act (.close number) =
      ({ s with hierarchy := h', pipelines := s.pipelines.set number ⟨evaluators, none⟩ },
        .returned) := by
  rw [act, close, held]
  simp only [Hierarchy.unsubscribe_natCast, cancelled]

/-- Closing changes nothing unless the pipeline has a live subscription. -/
theorem act_close_of_dead
    (dead : ∀ evaluators handle, s.pipelines[number]? = some ⟨evaluators, some handle⟩ →
      s.hierarchy.cancel? handle = none) :
    (s.act (.close number)).1 = s := by
  rw [act, close]
  split
  · next evaluators handle held =>
      rw [Hierarchy.unsubscribe_natCast, dead evaluators handle held]
  · rfl

/-- A pipeline without a handle is closed. -/
theorem act_close_of_closed (closed : s.pipelines[number]? = some ⟨evaluators, none⟩) :
    s.act (.close number) = (s, .returned) := by
  rw [act, close, closed]

/-- Once closed, a pipeline stays closed. -/
theorem closed_act (closed : s.pipelines[number]? = some ⟨evaluators, none⟩)
    (command : Command ν κ) :
    (s.act command).1.pipelines[number]? = some ⟨evaluators, none⟩ := by
  have edit := s.edit_act command
  generalize (s.act command).1 = s' at edit
  cases edit with
  | none hierarchy pipelines => rw [pipelines, closed]
  | grafted present absent hierarchy pipelines => rw [pipelines, closed]
  | subscribed accepted pipelines => rw [pipelines, closed]
  | cancelled cancelled pipelines => rw [pipelines, closed]
  | opened accepted pipelines =>
      rw [pipelines, List.getElem?_append_left (List.getElem?_eq_some_iff.1 closed).1, closed]
  | @closed other handle evaluators' own opened cancelled pipelines =>
      rw [pipelines]
      by_cases same : other = number
      · subst same
        obtain ⟨rfl, -⟩ : evaluators' = evaluators ∧ own = Option.none := by
          simpa using opened.symm.trans closed
        rw [List.getElem?_set_self (List.getElem?_eq_some_iff.1 closed).1]
      · rw [List.getElem?_set_ne same, closed]

theorem closed_play (closed : s.pipelines[number]? = some ⟨evaluators, none⟩)
    (commands : List (Command ν κ)) :
    (s.play commands).pipelines[number]? = some ⟨evaluators, none⟩ := by
  induction commands generalizing s with
  | nil => exact closed
  | cons command commands ih => exact ih (closed_act closed command)

/-! ## The roster after a command -/

namespace Enlists

variable (enlists : s.Enlists)

include enlists

/-- A pipeline that is closed had a live subscription, or it did not listen and nothing changes. -/
theorem act_close (number : ℕ) :
    (∃ evaluators handle h', s.pipelines[number]? = some ⟨evaluators, some handle⟩ ∧
      s.hierarchy.cancel? handle = some h' ∧
      s.act (.close number) =
        ({ s with hierarchy := h', pipelines := s.pipelines.set number ⟨evaluators, none⟩ },
          .returned)) ∨
      (s.act (.close number)).1 = s ∧ number ∉ s.listening := by
  by_cases live : ∃ evaluators handle h',
      s.pipelines[number]? = some ⟨evaluators, some handle⟩ ∧
        s.hierarchy.cancel? handle = some h'
  · obtain ⟨evaluators, handle, h', held, cancelled⟩ := live
    exact .inl ⟨evaluators, handle, h', held, cancelled, act_close_of_cancel? held cancelled⟩
  · refine .inr ⟨act_close_of_dead fun evaluators handle held => ?_, fun mem => ?_⟩
    · exact Option.eq_none_iff_forall_not_mem.2 fun h' cancelled =>
        live ⟨evaluators, handle, h', held, cancelled⟩
    · exact live (enlists.exists_of_mem_listening mem)

theorem after_subscribe (callback : κ) (node : Node ν) :
    (s.act (.subscribe callback node)).1.Enlists := by
  have sound := enlists.sound.act (.subscribe callback node)
  have registered := enlists.registered.act (.subscribe callback node)
  rw [Session.act, Session.subscribe] at sound registered ⊢
  cases accepted : s.hierarchy.subscribe (.callback callback) node with
  | error e => exact enlists
  | ok result =>
      rw [accepted] at sound registered
      exact enlists.subscribe sound registered accepted (by simp) (by simp)

theorem after_unsubscribe (handle : Value) : (s.act (.unsubscribe handle)).1.Enlists := by
  have sound := enlists.sound.act (.unsubscribe handle)
  have registered := enlists.registered.act (.unsubscribe handle)
  rw [Session.act, unsubscribe] at sound registered ⊢
  cases accepted : s.hierarchy.unsubscribe handle with
  | error e => exact enlists
  | ok h' =>
      obtain ⟨number, cancelled⟩ := Hierarchy.unsubscribe_eq_ok accepted
      rw [accepted] at sound registered
      exact enlists.cancel sound registered cancelled id fun _ held => held

/-- A pipeline that is opened holds the handle under which it listens. -/
theorem after_openPipeline (evaluators : List κ) :
    (s.act (.openPipeline evaluators)).1.Enlists := by
  have sound := enlists.sound.act (.openPipeline evaluators)
  have registered := enlists.registered.act (.openPipeline evaluators)
  obtain ⟨h', accepted, opened⟩ := act_openPipeline enlists.sound.tree evaluators
  rw [opened] at sound registered ⊢
  refine enlists.subscribe sound registered accepted ?_ ?_
  · intro number handle evaluators'
    by_cases new : s.pipelines.length = number
    · subst new
      simp [evaluatorsOf, and_comm, eq_comm]
    · have old : (s.pipelines ++ [⟨evaluators, some s.hierarchy.nextHandle⟩])[number]? =
          s.pipelines[number]? := by
        rcases Nat.lt_or_gt_of_ne new with beyond | inside
        · rw [List.getElem?_eq_none (Nat.le_of_lt beyond)]
          exact List.getElem?_eq_none (by simpa [Nat.succ_le_iff] using beyond)
        · exact List.getElem?_append_left inside
      simp [old, new]
  · intro number same
    obtain rfl : s.pipelines.length = number := by simpa using same
    exact ⟨if_pos rfl, Nat.le_refl _⟩

/-- A pipeline that is closed gives up the handle under which it listened. -/
theorem after_close (number : ℕ) : (s.act (.close number)).1.Enlists := by
  have sound := enlists.sound.act (.close number)
  have registered := enlists.registered.act (.close number)
  rcases enlists.act_close number with
    ⟨evaluators, handle, h', held, cancelled, closed⟩ | ⟨unchanged, -⟩
  · rw [closed] at sound registered ⊢
    refine enlists.cancel sound registered cancelled ?_ ?_
    · intro other handle' evaluators' held'
      by_cases same : number = other
      · subst same
        simp [List.getElem?_set_self (List.getElem?_eq_some_iff.1 held).1] at held'
      · rwa [List.getElem?_set_ne same] at held'
    · intro other handle' evaluators' different held'
      have other_one : number ≠ other := by
        rintro rfl
        rw [held] at held'
        simp at held'
        exact different held'.2.symm
      rwa [List.getElem?_set_ne other_one]
  · rw [unchanged]
    exact enlists

/-- Whatever a caller does, pipelines listen at the root alone, under the handles that they hold. -/
theorem act (command : Command ν κ) : (s.act command).1.Enlists := by
  by_cases keeps : command.keepsSubscriptions = true
  · exact enlists.congr (sameListeners_act keeps) (enlists.sound.act command)
      (enlists.registered.act command)
  cases command with
  | subscribe callback node => exact enlists.after_subscribe callback node
  | unsubscribe handle => exact enlists.after_unsubscribe handle
  | openPipeline evaluators => exact enlists.after_openPipeline evaluators
  | close number => exact enlists.after_close number
  | _ => exact absurd rfl keeps

theorem play (commands : List (Command ν κ)) : (s.play commands).Enlists := by
  induction commands generalizing s with
  | nil => exact enlists
  | cons command commands ih => exact ih (enlists.act command)

end Enlists

theorem listening_subscribe (s : Session ν κ) (callback : κ) (node : Node ν) :
    (s.act (.subscribe callback node)).1.listening = s.listening := by
  rw [act, subscribe]
  split
  · rfl
  · next handle h' accepted =>
      rw [listening_of_subscribe accepted]
      simp [Listener.pipeline?]

/-- A pipeline that is opened listens after all others. -/
theorem listening_openPipeline (tree : s.hierarchy.IsTree) (evaluators : List κ) :
    (s.act (.openPipeline evaluators)).1.listening = s.listening ++ [s.pipelines.length] := by
  obtain ⟨h', accepted, opened⟩ := act_openPipeline tree evaluators
  have at_root : s.hierarchy.root = s.hierarchy.orRoot .null := (if_pos rfl).symm
  rw [opened, listening_of_subscribe accepted, if_pos at_root]
  rfl

theorem evaluatorsOf_openPipeline (tree : s.hierarchy.IsTree) (evaluators : List κ) :
    (s.act (.openPipeline evaluators)).1.evaluatorsOf s.pipelines.length = evaluators := by
  obtain ⟨h', -, opened⟩ := act_openPipeline tree evaluators
  simp [opened, evaluatorsOf]

namespace Enlists

variable (enlists : s.Enlists)

include enlists

/-- A pipeline that is closed listens no more, and all others go on. -/
theorem mem_listening_close {closed : ℕ} :
    number ∈ (s.act (.close closed)).1.listening ↔ number ∈ s.listening ∧ number ≠ closed := by
  rcases enlists.act_close closed with
    ⟨evaluators, handle, h', held, cancelled, closes⟩ | ⟨unchanged, silent⟩
  · have root := (Hierarchy.Change.sameNodes_of_cancel? cancelled).root
    have same_one {x : Subscription (Listener κ)}
        (mem : x ∈ s.hierarchy.listenersAt s.hierarchy.root)
        (is_pipeline : x.listener = .pipeline number) : x.handle = handle ↔ number = closed := by
      constructor
      · intro same
        have is_closed := (enlists.holds mem).2 ⟨evaluators, same ▸ held⟩
        simpa [is_pipeline] using is_closed
      · rintro rfl
        obtain ⟨evaluators', held'⟩ := (enlists.holds mem).1 is_pipeline
        rw [held] at held'
        simp at held'
        exact held'.2.symm
    rw [closes, mem_listening, mem_listening, root]
    simp only [enlists.registered.registry.mem_listenersAt_of_cancel? cancelled]
    constructor
    · rintro ⟨x, ⟨mem, other⟩, is_pipeline⟩
      exact ⟨⟨x, mem, is_pipeline⟩, mt (same_one mem is_pipeline).2 other⟩
    · rintro ⟨⟨x, mem, is_pipeline⟩, other⟩
      exact ⟨x, ⟨mem, mt (same_one mem is_pipeline).1 other⟩, is_pipeline⟩
  · rw [unchanged]
    exact ⟨fun mem => ⟨mem, fun same => silent (same ▸ mem)⟩, And.left⟩

/-- The pipelines that listen after a command are those that listened before, with the one that it
opens and without the one that it closes. -/
theorem mem_listening_act {command : Command ν κ}
    (respects : ∀ handle, command ≠ .unsubscribe handle) :
    number ∈ (s.act command).1.listening ↔
      number ∈ s.listening ∧ command ≠ .close number ∨
        number = s.pipelines.length ∧ ∃ evaluators, command = .openPipeline evaluators := by
  by_cases keeps : command.keepsSubscriptions = true
  · have not_closed : command ≠ .close number := by
      rintro rfl
      cases keeps
    have not_opened (evaluators : List κ) : command ≠ .openPipeline evaluators := by
      rintro rfl
      cases keeps
    simp [(sameListeners_act keeps).listening_eq, not_closed, not_opened]
  cases command with
  | subscribe callback node => simp [listening_subscribe]
  | unsubscribe handle => exact absurd rfl (respects handle)
  | openPipeline evaluators => simp [listening_openPipeline enlists.sound.tree]
  | close closed => simp [enlists.mem_listening_close, eq_comm]
  | _ => exact absurd rfl keeps

/-- The roster after a command. -/
theorem mem_roster_act {command : Command ν κ}
    (respects : ∀ handle, command ≠ .unsubscribe handle) :
    (number, evaluators) ∈ (s.act command).1.roster ↔
      (number, evaluators) ∈ s.roster ∧ command ≠ .close number ∨
        number = s.pipelines.length ∧ command = .openPipeline evaluators := by
  have extension := (s.edit_act command).extends
  rw [mem_roster, mem_roster, enlists.mem_listening_act respects]
  constructor
  · rintro ⟨⟨listens, kept⟩ | ⟨rfl, evaluators', rfl⟩, rfl⟩
    · rw [extension.evaluatorsOf_eq (enlists.lt_length listens)]
      exact .inl ⟨⟨listens, rfl⟩, kept⟩
    · rw [evaluatorsOf_openPipeline enlists.sound.tree]
      exact .inr ⟨rfl, rfl⟩
  · rintro (⟨⟨listens, rfl⟩, kept⟩ | ⟨rfl, rfl⟩)
    · exact ⟨.inl ⟨listens, kept⟩, extension.evaluatorsOf_eq (enlists.lt_length listens)⟩
    · exact ⟨.inr ⟨rfl, _, rfl⟩, evaluatorsOf_openPipeline enlists.sound.tree evaluators⟩

end Enlists

/-! ## Open pipelines -/

/-- A pipeline is open after some commands: it listened before them or was opened by one of them,
and no command since has closed it. -/
inductive IsOpen (s : Session ν κ) : List (Command ν κ) → ℕ → List κ → Prop
  | listening {commands : List (Command ν κ)} {number : ℕ} (listens : number ∈ s.listening)
      (kept : .close number ∉ commands) : IsOpen s commands number (s.evaluatorsOf number)
  | opened {commands later : List (Command ν κ)} {evaluators : List κ}
      (kept : .close (s.play commands).pipelines.length ∉ later) :
      IsOpen s (commands ++ .openPipeline evaluators :: later)
        (s.play commands).pipelines.length evaluators

theorem isOpen_nil : s.IsOpen [] number evaluators ↔ (number, evaluators) ∈ s.roster := by
  rw [mem_roster]
  constructor
  · intro is_open
    generalize none : ([] : List (Command ν κ)) = commands at is_open
    cases is_open with
    | listening listens kept => exact ⟨listens, rfl⟩
    | opened kept => simp at none
  · rintro ⟨listens, rfl⟩
    exact .listening listens List.not_mem_nil

/-- What is open changes with the last command alone. -/
theorem isOpen_concat {commands : List (Command ν κ)} {command : Command ν κ} :
    s.IsOpen (commands ++ [command]) number evaluators ↔
      s.IsOpen commands number evaluators ∧ command ≠ .close number ∨
        number = (s.play commands).pipelines.length ∧ command = .openPipeline evaluators := by
  constructor
  · intro is_open
    generalize all : commands ++ [command] = commands' at is_open
    cases is_open with
    | listening listens kept =>
        subst all
        simp only [List.mem_append, List.mem_singleton, not_or] at kept
        exact .inl ⟨.listening listens kept.1, Ne.symm kept.2⟩
    | @opened earlier later _ kept =>
        rcases later.eq_nil_or_concat with rfl | ⟨later, last, rfl⟩
        · obtain ⟨rfl, same⟩ := List.append_inj' all rfl
          exact .inr ⟨rfl, List.singleton_inj.1 same⟩
        · rw [List.concat_eq_append, ← List.cons_append, ← List.append_assoc] at all
          obtain ⟨rfl, same⟩ := List.append_inj' all rfl
          obtain rfl := List.singleton_inj.1 same
          simp only [List.concat_eq_append, List.mem_append, List.mem_singleton, not_or] at kept
          exact .inl ⟨.opened kept.1, Ne.symm kept.2⟩
  · rintro (⟨is_open, kept⟩ | ⟨rfl, rfl⟩)
    · cases is_open with
      | listening listens kept' =>
          exact .listening listens (by simp [kept', Ne.symm kept])
      | opened kept' =>
          rw [List.append_assoc, List.cons_append]
          exact .opened (by simp [kept', Ne.symm kept])
    · exact .opened List.not_mem_nil

/-- As long as nobody cancels subscriptions, exactly the open pipelines are on the roster. -/
theorem Enlists.mem_roster_play (enlists : s.Enlists) {commands : List (Command ν κ)}
    (respects : ∀ handle, .unsubscribe handle ∉ commands) :
    (number, evaluators) ∈ (s.play commands).roster ↔ s.IsOpen commands number evaluators := by
  induction commands using List.reverseRecOn generalizing number evaluators with
  | nil => exact isOpen_nil.symm
  | append_singleton commands command ih =>
      simp only [List.mem_append, List.mem_singleton, not_or] at respects
      have not_cancelled (handle : Value) : command ≠ .unsubscribe handle :=
        Ne.symm (respects handle).2
      rw [play_append, isOpen_concat, ← ih fun handle => (respects handle).1]
      exact (enlists.play commands).mem_roster_act not_cancelled

/-- Once a pipeline that listened has been closed, closing it again has no effect. -/
theorem Enlists.act_close_again (enlists : s.Enlists) (mem : number ∈ s.listening)
    (commands : List (Command ν κ)) :
    let t := (s.act (.close number)).1.play commands
    t.act (.close number) = (t, .returned) := by
  intro t
  obtain ⟨evaluators, handle, h', held, cancelled⟩ := enlists.exists_of_mem_listening mem
  have closed : (s.act (.close number)).1.pipelines[number]? = some ⟨evaluators, none⟩ := by
    rw [act_close_of_cancel? held cancelled]
    exact List.getElem?_set_self (List.getElem?_eq_some_iff.1 held).1
  exact act_close_of_closed (closed_play closed commands)

end Session

end PointPattern
