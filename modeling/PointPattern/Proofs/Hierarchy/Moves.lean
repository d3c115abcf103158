/-
# What a command can do

A command changes the hierarchy in one of two ways: it adds a node below one that is
there, or it leaves the nodes alone. It changes the deliveries under way in one of four:
it leaves them alone, begins one, goes on with the newest, or gives the newest up. All
that is said about runs of commands is said about these few cases first.
-/

import PointPattern.Hierarchy.Session
import PointPattern.Proofs.Hierarchy.Tree
import PointPattern.Proofs.Results

namespace PointPattern

/-! ## Hierarchies -/

namespace Hierarchy

variable {ν κ : Type} [DecidableEq ν] {h h' : Hierarchy ν κ} {n p child parent : Node ν}
variable {e : Error} {role : String}

theorem find_eq_ok (found : h.find n role = .ok p) : n = p ∧ h.contains n = true := by
  rw [find] at found
  split at found
  · next contained =>
      cases found
      exact ⟨rfl, contained⟩
  · cases found

theorem find_eq_error (failed : h.find n role = .error e) : e = .invalid (.nodeAbsent role) := by
  rw [find] at failed
  split at failed <;> cases failed
  rfl

theorem not_mem_of_contains_eq_false (absent : h.contains n = false) :
    n ≠ .null ∧ n ∉ h.nodes := by
  simpa [contains] using absent

/-- What stands for a node as an argument is a node, if the check does not refuse it. -/
theorem IsTree.orRoot_mem (tree : h.IsTree) (contained : h.contains (h.orRoot n) = true) :
    h.orRoot n ∈ h.nodes := by
  have member : h.orRoot n = .null ∨ h.orRoot n ∈ h.nodes := by simpa [contains] using contained
  rcases member with is_null | mem
  · have root_mem : h.orRoot n = h.root := by
      by_cases absent : n = .null
      · rw [orRoot, if_pos absent]
      · rw [orRoot, if_neg absent] at is_null
        exact absurd is_null absent
    rw [root_mem]
    exact tree.root_mem
  · exact mem

/-- The node and the hierarchy that an accepted attachment gives. -/
theorem attach_eq_ok (accepted : h.attach child parent = .ok (p, h')) :
    p = h.orRoot parent ∧ h.contains p = true ∧ h.contains child = false ∧
      h' = h.graft child p := by
  obtain ⟨q, found, accepted⟩ := exists_of_bind_eq_ok accepted
  obtain ⟨rfl, contained⟩ := find_eq_ok found
  cases present : h.contains child with
  | true =>
      rw [present] at accepted
      cases accepted
  | false =>
      rw [present] at accepted
      cases accepted
      exact ⟨rfl, contained, rfl, rfl⟩

/-- An attachment is refused for one of two reasons. -/
theorem attach_eq_error (refused : h.attach child parent = .error e) :
    e = .invalid (.nodeAbsent "parent") ∨ e = .invalid .childPresent := by
  rw [attach] at refused
  cases found : h.find (h.orRoot parent) "parent" with
  | error cause =>
      rw [found] at refused
      cases refused
      exact .inl (find_eq_error found)
  | ok q =>
      rw [found] at refused
      cases present : h.contains child with
      | true =>
          rw [present] at refused
          cases refused
          exact .inr rfl
      | false =>
          rw [present] at refused
          cases refused

/-- A node that is absent is attached below every node that is present. -/
theorem attach_of_contains (present : h.contains (h.orRoot parent) = true)
    (absent : h.contains child = false) :
    h.attach child parent = .ok (h.orRoot parent, h.graft child (h.orRoot parent)) := by
  rw [attach, find, if_pos present, absent]
  rfl

theorem subscribe_eq_ok {listener : κ} {handle : ℕ}
    (accepted : h.subscribe listener n = .ok (handle, h')) :
    h.contains (h.orRoot n) = true ∧ handle = h.nextHandle ∧
      h' = { h with
        listeners := h.listeners.put (h.orRoot n)
          (h.listenersAt (h.orRoot n) ++ [⟨h.nextHandle, listener⟩])
        owners := h.owners.put h.nextHandle (h.orRoot n)
        nextHandle := h.nextHandle + 1 } := by
  obtain ⟨q, found, accepted⟩ := exists_of_bind_eq_ok accepted
  obtain ⟨rfl, contained⟩ := find_eq_ok found
  cases accepted
  exact ⟨contained, rfl, rfl⟩

theorem unsubscribe_eq_ok {value : Value} (accepted : h.unsubscribe value = .ok h') :
    ∃ handle, h.cancel? handle = some h' := by
  obtain ⟨number, -, accepted⟩ := exists_of_bind_eq_ok accepted
  split at accepted
  · next cancelled =>
      cases accepted
      obtain ⟨handle, -, cancelled⟩ := Option.bind_eq_some_iff.1 cancelled
      exact ⟨handle, cancelled⟩
  · cases accepted

theorem cancel?_eq_some {handle : ℕ} (cancelled : h.cancel? handle = some h') :
    ∃ owner, h.owners.get? handle = some owner ∧
      h' = { h with
        owners := h.owners.erase handle
        listeners :=
          h.listeners.put owner ((h.listenersAt owner).filter (·.handle ≠ handle)) } := by
  rw [cancel?] at cancelled
  split at cancelled
  · cases cancelled
  · next owner owned =>
      cases cancelled
      exact ⟨owner, owned, rfl⟩

/-- How a command changes a hierarchy. -/
inductive Change (h : Hierarchy ν κ) : Hierarchy ν κ → Prop
  /-- Nothing is changed. -/
  | none : Change h h
  /-- A new node is added below a node that is there. -/
  | grafted {child parent : Node ν} (present : h.contains (h.orRoot parent) = true)
      (absent : h.contains child = false) : Change h (h.graft child (h.orRoot parent))
  /-- A listener subscribes. -/
  | subscribed {listener : κ} {n : Node ν} {handle : ℕ} {h' : Hierarchy ν κ}
      (accepted : h.subscribe listener n = .ok (handle, h')) : Change h h'
  /-- A subscription is cancelled. -/
  | cancelled {handle : ℕ} {h' : Hierarchy ν κ} (cancelled : h.cancel? handle = some h') :
      Change h h'

namespace Change

theorem sameNodes_of_subscribe {listener : κ} {handle : ℕ}
    (accepted : h.subscribe listener n = .ok (handle, h')) : h.SameNodes h' := by
  obtain ⟨-, -, rfl⟩ := subscribe_eq_ok accepted
  exact ⟨rfl, rfl, rfl, rfl⟩

theorem sameNodes_of_cancel? {handle : ℕ} (cancelled : h.cancel? handle = some h') :
    h.SameNodes h' := by
  obtain ⟨owner, -, rfl⟩ := cancel?_eq_some cancelled
  exact ⟨rfl, rfl, rfl, rfl⟩

theorem isTree (change : h.Change h') (tree : h.IsTree) : h'.IsTree := by
  cases change with
  | none => exact tree
  | grafted present absent =>
      obtain ⟨not_null, absent⟩ := not_mem_of_contains_eq_false absent
      exact tree.graft (tree.orRoot_mem present) absent not_null
  | subscribed accepted => exact (sameNodes_of_subscribe accepted).isTree tree
  | cancelled cancelled => exact (sameNodes_of_cancel? cancelled).isTree tree

theorem grows (change : h.Change h') (tree : h.IsTree) : h.Grows h' := by
  cases change with
  | none => exact .refl h
  | grafted present absent =>
      exact tree.grows_graft (tree.orRoot_mem present) (not_mem_of_contains_eq_false absent).2
  | subscribed accepted => exact (sameNodes_of_subscribe accepted).grows
  | cancelled cancelled => exact (sameNodes_of_cancel? cancelled).grows

end Change

end Hierarchy

/-! ## Sessions -/

/-- A delivery climbs on the way upwards from the node below which it began. -/
structure Delivery.OnTrack {ν κ : Type} [DecidableEq ν] (d : Delivery ν κ)
    (h : Hierarchy ν (Listener κ)) : Prop where
  parent_mem : d.parent ∈ h.nodes
  path_suffix : d.path <:+ d.parent :: h.ancestorsOf d.parent

namespace Session

variable {ν κ : Type} [DecidableEq ν] [DecidableEq κ] {s : Session ν κ}

/-! ### Going on with a delivery -/

@[simp]
theorem hierarchy_proceed (s : Session ν κ) : s.proceed.1.hierarchy = s.hierarchy := by
  rw [proceed]
  split
  · rfl
  · split <;> rfl

@[simp]
theorem pipelines_proceed (s : Session ν κ) : s.proceed.1.pipelines = s.pipelines := by
  rw [proceed]
  split
  · rfl
  · split <;> rfl

theorem proceed_of_next_eq_some {d d' : Delivery ν κ} {rest : List (Delivery ν κ)}
    {call : Call ν κ} (newest : s.pending = d :: rest)
    (next : d.next (s.callsOf d.child d.parent) s.hierarchy.listenersAt = some (call, d')) :
    s.proceed = ({ s with pending := d' :: rest }, .called call) := by
  rw [proceed, newest]
  dsimp only
  rw [next]

theorem proceed_of_next_eq_none {d : Delivery ν κ} {rest : List (Delivery ν κ)}
    (newest : s.pending = d :: rest)
    (is_over : d.next (s.callsOf d.child d.parent) s.hierarchy.listenersAt = none) :
    s.proceed = ({ s with pending := rest }, .returned) := by
  rw [proceed, newest]
  dsimp only
  rw [is_over]

/-! ### Commands -/

/-- What a command does to the deliveries under way. -/
inductive Move (s : Session ν κ) : Command ν κ → Session ν κ × Signal ν κ → Prop
  /-- They are left alone, and no call is to be made. -/
  | still {command : Command ν κ} {s' : Session ν κ} {signal : Signal ν κ}
      (pending : s'.pending = s.pending) (no_call : ∀ call, signal ≠ .called call) :
      Move s command (s', signal)
  /-- A node was attached, and its delivery begins. -/
  | attached {child parent : Node ν}
      (present : s.hierarchy.contains (s.hierarchy.orRoot parent) = true)
      (absent : s.hierarchy.contains child = false) :
      Move s (.attach child parent)
        (deliver { s with hierarchy := s.hierarchy.graft child (s.hierarchy.orRoot parent) }
          (notice (s.hierarchy.graft child (s.hierarchy.orRoot parent)) child
            (s.hierarchy.orRoot parent)))
  /-- A pipeline is applied. -/
  | updated {command : Command ν κ} (pipeline : ℕ) (result : Node ν) :
      Move s command (s.update pipeline result)
  /-- The call under way has ended. -/
  | finished : Move s .finish s.proceed
  /-- The call under way has failed. -/
  | failed (e : Error) : Move s (.fail e) ({ s with pending := s.pending.drop 1 }, .raised e)

/-- Every command moves the deliveries in one of these ways. -/
theorem move_act (s : Session ν κ) (command : Command ν κ) : s.Move command (s.act command) := by
  cases command with
  | attach child parent =>
      rw [act, attach]
      split
      · exact .still rfl fun _ impossible => by cases impossible
      · next p h' accepted =>
          obtain ⟨rfl, present, absent, rfl⟩ := Hierarchy.attach_eq_ok accepted
          exact .attached present absent
  | subscribe callback node =>
      rw [act, subscribe]
      split <;> exact .still rfl fun _ impossible => by cases impossible
  | unsubscribe handle =>
      rw [act, unsubscribe]
      split <;> exact .still rfl fun _ impossible => by cases impossible
  | openPipeline evaluators =>
      simp only [act, openPipeline]
      split <;> exact .still rfl fun _ impossible => by cases impossible
  | run pipeline => exact .updated pipeline s.hierarchy.root
  | update pipeline result => exact .updated pipeline result
  | close pipeline =>
      rw [act, close]
      split
      · split <;> exact .still rfl fun _ impossible => by cases impossible
      · exact .still rfl fun _ impossible => by cases impossible
  | finish => exact .finished
  | fail e => exact .failed e

/-- What a command changes beside the deliveries. -/
inductive Edit (s s' : Session ν κ) : Prop
  | none (hierarchy : s'.hierarchy = s.hierarchy) (pipelines : s'.pipelines = s.pipelines)
  | grafted {child parent : Node ν}
      (present : s.hierarchy.contains (s.hierarchy.orRoot parent) = true)
      (absent : s.hierarchy.contains child = false)
      (hierarchy : s'.hierarchy = s.hierarchy.graft child (s.hierarchy.orRoot parent))
      (pipelines : s'.pipelines = s.pipelines)
  | subscribed {callback : κ} {n : Node ν} {handle : ℕ}
      (accepted : s.hierarchy.subscribe (.callback callback) n = .ok (handle, s'.hierarchy))
      (pipelines : s'.pipelines = s.pipelines)
  | cancelled {handle : ℕ} (cancelled : s.hierarchy.cancel? handle = some s'.hierarchy)
      (pipelines : s'.pipelines = s.pipelines)
  /-- A pipeline is opened, which subscribes at the root. -/
  | opened {evaluators : List κ} {handle : ℕ}
      (accepted : s.hierarchy.subscribe (.pipeline s.pipelines.length) .null =
        .ok (handle, s'.hierarchy))
      (pipelines : s'.pipelines = s.pipelines ++ [⟨evaluators, some handle⟩])
  /-- A pipeline is closed, and its subscription is cancelled. -/
  | closed {number handle : ℕ} {evaluators : List κ} {own : Option ℕ}
      (opened : s.pipelines[number]? = some ⟨evaluators, own⟩)
      (cancelled : s.hierarchy.cancel? handle = some s'.hierarchy)
      (pipelines : s'.pipelines = s.pipelines.set number ⟨evaluators, .none⟩)

theorem edit_proceed {s' : Session ν κ} (edit : s.Edit s') : s.Edit s'.proceed.1 := by
  cases edit with
  | none hierarchy pipelines =>
      exact .none (by rw [hierarchy_proceed, hierarchy]) (by rw [pipelines_proceed, pipelines])
  | grafted present absent hierarchy pipelines =>
      exact .grafted present absent (by rw [hierarchy_proceed, hierarchy])
        (by rw [pipelines_proceed, pipelines])
  | subscribed accepted pipelines =>
      exact .subscribed (by rw [hierarchy_proceed, accepted]) (by rw [pipelines_proceed, pipelines])
  | cancelled cancelled pipelines =>
      exact .cancelled (by rw [hierarchy_proceed, cancelled])
        (by rw [pipelines_proceed, pipelines])
  | opened accepted pipelines =>
      exact .opened (by rw [hierarchy_proceed, accepted]) (by rw [pipelines_proceed, pipelines])
  | closed opened cancelled pipelines =>
      exact .closed opened (by rw [hierarchy_proceed, cancelled])
        (by rw [pipelines_proceed, pipelines])

/-- Every command makes one of these changes. -/
theorem edit_act (s : Session ν κ) (command : Command ν κ) : s.Edit (s.act command).1 := by
  cases command with
  | attach child parent =>
      rw [act, attach]
      split
      · exact .none rfl rfl
      · next p h' accepted =>
          obtain ⟨rfl, present, absent, rfl⟩ := Hierarchy.attach_eq_ok accepted
          exact edit_proceed (.grafted present absent rfl rfl)
  | subscribe callback node =>
      rw [act, subscribe]
      split
      · exact .none rfl rfl
      · next handle h' accepted => exact .subscribed accepted rfl
  | unsubscribe handle =>
      rw [act, unsubscribe]
      split
      · exact .none rfl rfl
      · next h' accepted =>
          obtain ⟨number, cancelled⟩ := Hierarchy.unsubscribe_eq_ok accepted
          exact .cancelled cancelled rfl
  | openPipeline evaluators =>
      simp only [act, openPipeline]
      split
      · exact .none rfl rfl
      · next handle h' accepted => exact .opened accepted rfl
  | run pipeline => exact edit_proceed (.none rfl rfl)
  | update pipeline result => exact edit_proceed (.none rfl rfl)
  | close pipeline =>
      rw [act, close]
      split
      · next evaluators handle opened =>
          split
          · exact .none rfl rfl
          · next h' accepted =>
              obtain ⟨number, cancelled⟩ := Hierarchy.unsubscribe_eq_ok accepted
              exact .closed opened cancelled rfl
      · exact .none rfl rfl
  | finish => exact edit_proceed (.none rfl rfl)
  | fail e => exact .none rfl rfl

/-- A command changes the hierarchy as hierarchies change. -/
theorem change_act (s : Session ν κ) (command : Command ν κ) :
    s.hierarchy.Change (s.act command).1.hierarchy := by
  have edit := s.edit_act command
  generalize (s.act command).1 = s' at edit
  cases edit with
  | none hierarchy pipelines =>
      rw [hierarchy]
      exact .none
  | grafted present absent hierarchy pipelines =>
      rw [hierarchy]
      exact .grafted present absent
  | subscribed accepted pipelines => exact .subscribed accepted
  | cancelled cancelled pipelines => exact .cancelled cancelled
  | opened accepted pipelines => exact .subscribed accepted
  | closed opened cancelled pipelines => exact .cancelled cancelled

end Session

end PointPattern
