/-
# Walks through a hierarchy that grows

A tour is a walk that is taken step by step while any commands are given in between. Its steps
are understood through the nodes that it has reached: those that were visited, and those that are
to come. A step leaves the node that was visited last, and this is when the children of the node
are reached, at once and in order. So a node is reached exactly if its parent is left after the
node was attached, which can happen once only. What is reached is never given up, and a tour that
is over has visited all of it.

While the hierarchy stays as it is, the nodes to come and everything below them, in recursive
order, are what is still to be visited.
-/

import PointPattern.Proofs.Hierarchy.Owed

namespace PointPattern

variable {ν κ : Type}

/-! ## Children -/

namespace Hierarchy

variable [DecidableEq ν] {h : Hierarchy ν κ} {n p : Node ν}

theorem IsTree.mem_childrenOf (tree : h.IsTree) : n ∈ h.childrenOf p ↔ h.parentOf n = some p := by
  rw [← List.count_pos_iff, tree.count_childrenOf]
  split_ifs with parent <;> simp [parent]

theorem IsTree.nodup_childrenOf (tree : h.IsTree) (p : Node ν) : (h.childrenOf p).Nodup := by
  rw [List.nodup_iff_count_le_one]
  intro n
  rw [tree.count_childrenOf]
  split <;> omega

end Hierarchy

/-! ## Tours -/

/-- What happens during a tour: the next node is asked for, or a command is given. -/
inductive Turn (ν κ : Type) where
  | advance
  | command (c : Command ν κ)

/-- A walk through the hierarchy of a session, with the nodes that it has visited, in order. Once
the walk is over there is none any more. -/
structure Tour (ν κ : Type) where
  session : Session ν κ
  walk : Option (Walk ν)
  visited : List (Node ν) := []

def Turn.isAdvance : Turn ν κ → Bool
  | .advance => true
  | .command _ => false

def Turn.isAttachment : Turn ν κ → Bool
  | .command (.attach _ _) => true
  | _ => false

namespace Tour

/-- The tour through the hierarchy of a session that has not begun. -/
def ofSession (s : Session ν κ) : Tour ν κ := { session := s, walk := some (.start s.hierarchy) }

/-- The node that was visited last, while the walk is not over. -/
def last (t : Tour ν κ) : Option (Node ν) := t.walk.bind (·.last)

/-- The nodes that the walk has noted. -/
def ahead (t : Tour ν κ) : List (Node ν) := t.walk.elim [] (·.ahead)

/-- The nodes that were visited or noted. -/
def reached (t : Tour ν κ) : List (Node ν) := t.visited ++ t.ahead

/-- A node was visited, and the walk has gone on from it. -/
def Left (t : Tour ν κ) (n : Node ν) : Prop := n ∈ t.visited ∧ t.last ≠ some n

section Over

variable {t : Tour ν κ} {n : Node ν}

theorem last_of_over (is_over : t.walk = none) : t.last = none := by
  rw [last, is_over, Option.bind_none]

theorem ahead_of_over (is_over : t.walk = none) : t.ahead = [] := by
  rw [ahead, is_over, Option.elim_none]

/-- A walk that is over has visited all that it has reached. -/
theorem reached_of_over (is_over : t.walk = none) : t.reached = t.visited := by
  rw [reached, ahead_of_over is_over, List.append_nil]

/-- It has left every node that it has visited. -/
theorem left_iff_of_over (is_over : t.walk = none) : t.Left n ↔ n ∈ t.visited := by
  simp [Left, last_of_over is_over]

end Over

variable [DecidableEq ν]

/-- The nodes to come: the children of the node visited last, and those noted. -/
def onward (t : Tour ν κ) : List (Node ν) :=
  t.last.elim [] t.session.hierarchy.childrenOf ++ t.ahead

/-- The next step finds every node that it looks up. -/
structure Finds (t : Tour ν κ) : Prop where
  children : ∀ n, t.last = some n → n ∈ t.session.hierarchy.children.keys
  nodes : ∀ n ∈ t.onward, n ∈ t.session.hierarchy.nodes

/-- One step of the walk. -/
def advance (t : Tour ν κ) : Tour ν κ :=
  match t.walk with
  | none => t
  | some w => match w.next t.session.hierarchy with
    | none => { t with walk := none }
    | some (n, w) => { t with walk := some w, visited := t.visited ++ [n] }

/-! ### One step -/

variable {t : Tour ν κ} {n p : Node ν}

theorem onward_of_over (is_over : t.walk = none) : t.onward = [] := by
  rw [onward, last_of_over is_over, ahead_of_over is_over]
  rfl

theorem onward_eq {w : Walk ν} (live : t.walk = some w) :
    w.onward t.session.hierarchy = t.onward := by
  obtain ⟨last, ahead⟩ := w
  rw [onward, Tour.last, Tour.ahead, live]
  cases last <;> rfl

/-- Every way a step can end. -/
inductive Advance (t : Tour ν κ) : Tour ν κ → Prop
  /-- The walk was over. -/
  | stays (is_over : t.walk = none) : Advance t t
  /-- The walk ends. -/
  | ended (live : t.walk ≠ none) (no_more : t.onward = []) : Advance t { t with walk := none }
  /-- A node is visited. -/
  | visits {n : Node ν} {rest : List (Node ν)} (live : t.walk ≠ none)
      (next : t.onward = n :: rest) :
      Advance t { t with walk := some ⟨some n, rest⟩, visited := t.visited ++ [n] }

theorem advance_spec (t : Tour ν κ) : t.Advance t.advance := by
  rw [advance]
  cases live : t.walk with
  | none => exact .stays live
  | some w =>
      have walks : t.walk ≠ none := by simp [live]
      dsimp only
      rw [Walk.next, onward_eq live]
      cases next : t.onward with
      | nil => exact .ended walks next
      | cons n rest => exact .visits walks next

@[simp]
theorem session_advance (t : Tour ν κ) : t.advance.session = t.session := by
  have step := t.advance_spec
  generalize t.advance = t' at step
  cases step <;> rfl

theorem visited_advance (t : Tour ν κ) :
    t.advance.visited = t.visited ++ t.onward.head?.toList := by
  have step := t.advance_spec
  generalize t.advance = t' at step
  cases step with
  | stays is_over =>
      rw [onward_of_over is_over, List.head?_nil, Option.toList_none, List.append_nil]
  | ended live no_more => rw [no_more, List.head?_nil, Option.toList_none, List.append_nil]
  | visits live next => rw [next, List.head?_cons, Option.toList_some]

/-- A step reaches the children of the node that it leaves, before what was noted. -/
theorem reached_advance (t : Tour ν κ) : t.advance.reached = t.visited ++ t.onward := by
  have step := t.advance_spec
  generalize t.advance = t' at step
  cases step with
  | stays is_over => rw [reached, onward_of_over is_over, ahead_of_over is_over]
  | ended live no_more =>
      rw [no_more]
      rfl
  | @visits n rest live next =>
      rw [next]
      exact (List.append_cons t.visited n rest).symm

/-! ### What every tour keeps -/

/-- The nodes reached are distinct nodes, the root is the first of them, the parent of each was
left, and what was reached of the children of a node are the first of them. -/
structure Sound (t : Tour ν κ) : Prop where
  session : t.session.Sound
  nodup : t.reached.Nodup
  mem_nodes : ∀ n ∈ t.reached, n ∈ t.session.hierarchy.nodes
  root_mem : t.session.hierarchy.root ∈ t.reached
  last_mem : ∀ n, t.last = some n → n ∈ t.visited
  parent_left : ∀ n ∈ t.reached, ∀ p, t.session.hierarchy.parentOf n = some p → t.Left p
  parent_first : ∀ front n back, t.visited = front ++ n :: back →
    ∀ p, t.session.hierarchy.parentOf n = some p → p ∈ front
  siblings : ∀ p, t.reached.filter (t.session.hierarchy.parentOf · = some p) <+:
    t.session.hierarchy.childrenOf p

theorem sound_ofSession {s : Session ν κ} (sound : s.Sound) : (ofSession s).Sound := by
  have orphan : s.hierarchy.parentOf s.hierarchy.root = none :=
    (sound.tree.parentOf_eq_none_iff _ sound.tree.root_mem).2 rfl
  have only_root {n : Node ν} (mem : n ∈ (ofSession s).reached) : n = s.hierarchy.root :=
    List.mem_singleton.1 mem
  constructor
  case session => exact sound
  case nodup => exact List.nodup_singleton _
  case mem_nodes =>
    intro n mem
    rw [only_root mem]
    exact sound.tree.root_mem
  case root_mem => exact List.mem_singleton.2 rfl
  case last_mem => exact fun n none_yet => by cases none_yet
  case parent_left =>
    intro n mem p parent
    have none_above := only_root mem ▸ parent
    rw [ofSession] at none_above
    rw [orphan] at none_above
    cases none_above
  case parent_first =>
    intro front n back split
    exact absurd split.symm (by simp [ofSession])
  case siblings =>
    intro p
    have none_below : (ofSession s).reached.filter
        ((ofSession s).session.hierarchy.parentOf · = some p) = [] := by
      refine List.filter_eq_nil_iff.2 fun n mem => ?_
      rw [only_root mem]
      simp [ofSession, orphan]
    rw [none_below]
    exact List.nil_prefix

namespace Sound

variable (sound : t.Sound)
include sound

/-- The nodes to come are the children of the node visited last, and those noted. -/
theorem mem_onward : n ∈ t.onward ↔
    (∃ p, t.last = some p ∧ t.session.hierarchy.parentOf n = some p) ∨ n ∈ t.ahead := by
  rw [onward, List.mem_append]
  refine or_congr_left ?_
  cases t.last with
  | none => simp
  | some p => simp [sound.session.tree.mem_childrenOf]

/-- None of the children of the node visited last was reached before. -/
theorem last_ne_parent (mem : n ∈ t.reached) (parent : t.session.hierarchy.parentOf n = some p) :
    t.last ≠ some p :=
  (sound.parent_left n mem p parent).2

theorem nodup_onward : (t.visited ++ t.onward).Nodup := by
  have fresh_first : (t.visited ++ t.onward).Perm
      (t.last.elim [] t.session.hierarchy.childrenOf ++ t.reached) :=
    List.perm_append_comm_assoc _ _ _
  refine fresh_first.nodup_iff.2 (List.nodup_append.2 ⟨?_, sound.nodup, ?_⟩)
  · cases t.last with
    | none => exact List.nodup_nil
    | some p => exact sound.session.tree.nodup_childrenOf p
  · rintro n fresh m old rfl
    cases last : t.last with
    | none =>
        rw [last] at fresh
        cases fresh
    | some p =>
        rw [last] at fresh
        exact sound.last_ne_parent old (sound.session.tree.mem_childrenOf.1 fresh) last

/-- After a step exactly the nodes that were visited before it are left. -/
theorem left_advance : t.advance.Left n ↔ n ∈ t.visited := by
  have step := t.advance_spec
  have nodup := sound.nodup_onward
  generalize t.advance = t' at step
  cases step with
  | stays is_over => exact left_iff_of_over is_over
  | ended live no_more => exact left_iff_of_over rfl
  | @visits m rest live next =>
      rw [next] at nodup
      have new : n ∈ t.visited → n ≠ m := fun old same =>
        (List.nodup_append.1 nodup).2.2 n old m List.mem_cons_self same
      constructor
      · rintro ⟨mem, not_last⟩
        refine (List.mem_append.1 mem).resolve_right fun is_last => not_last ?_
        rw [List.mem_singleton.1 is_last]
        rfl
      · intro old
        exact ⟨List.mem_append_left _ old, fun is_last => new old (Option.some.inj is_last).symm⟩

theorem mem_nodes_onward (mem : n ∈ t.visited ++ t.onward) : n ∈ t.session.hierarchy.nodes := by
  rcases List.mem_append.1 mem with visited | next
  · exact sound.mem_nodes n (List.mem_append_left _ visited)
  · rcases sound.mem_onward.1 next with ⟨p, -, parent⟩ | noted
    · by_contra absent
      rw [sound.session.tree.parentOf_eq_none absent] at parent
      cases parent
    · exact sound.mem_nodes n (List.mem_append_right _ noted)

theorem mem_visited_of_parent (mem : n ∈ t.visited ++ t.onward)
    (parent : t.session.hierarchy.parentOf n = some p) : p ∈ t.visited := by
  have of_reached (mem : n ∈ t.reached) : p ∈ t.visited := (sound.parent_left n mem p parent).1
  rcases List.mem_append.1 mem with visited | next
  · exact of_reached (List.mem_append_left _ visited)
  · rcases sound.mem_onward.1 next with ⟨q, last, parent'⟩ | noted
    · rw [parent] at parent'
      exact sound.last_mem p (last.trans parent'.symm)
    · exact of_reached (List.mem_append_right _ noted)

/-- A step reaches either all children of a node or none of them. -/
theorem siblings_onward (p : Node ν) :
    (t.visited ++ t.onward).filter (t.session.hierarchy.parentOf · = some p) <+:
      t.session.hierarchy.childrenOf p := by
  have tree := sound.session.tree
  have siblings := sound.siblings p
  rw [reached, List.filter_append] at siblings
  rw [onward, List.filter_append, List.filter_append]
  cases last : t.last with
  | none => exact siblings
  | some q =>
      have fresh : ∀ n ∈ t.session.hierarchy.childrenOf q,
          t.session.hierarchy.parentOf n = some q := fun n mem => tree.mem_childrenOf.1 mem
      rw [Option.elim_some]
      by_cases same : q = p
      · subst same
        have none_before : t.reached.filter (t.session.hierarchy.parentOf · = some q) = [] := by
          refine List.filter_eq_nil_iff.2 fun n mem => ?_
          rw [decide_eq_true_eq]
          exact fun parent => sound.last_ne_parent mem parent last
        rw [reached, List.filter_append, List.append_eq_nil_iff] at none_before
        have all := List.filter_eq_self.2 fun n mem => decide_eq_true (fresh n mem)
        rw [none_before.1, none_before.2, List.nil_append, List.append_nil]
        exact ⟨[], (List.append_nil _).trans all⟩
      · have no_fresh : (t.session.hierarchy.childrenOf q).filter
            (t.session.hierarchy.parentOf · = some p) = [] := by
          refine List.filter_eq_nil_iff.2 fun n mem => ?_
          rw [decide_eq_true_eq, fresh n mem]
          exact fun parent => same (Option.some.inj parent)
        rwa [no_fresh, List.nil_append]

theorem finds : t.Finds where
  children n last := by
    rw [sound.session.tree.keys_children]
    exact sound.mem_nodes n (List.mem_append_left _ (sound.last_mem n last))
  nodes n mem := sound.mem_nodes_onward (List.mem_append_right _ mem)

/-- A step of the walk keeps all this. -/
theorem advance : t.advance.Sound := by
  constructor
  case session =>
    rw [session_advance]
    exact sound.session
  case nodup =>
    rw [reached_advance]
    exact sound.nodup_onward
  case mem_nodes =>
    intro n mem
    rw [reached_advance] at mem
    rw [session_advance]
    exact sound.mem_nodes_onward mem
  case root_mem =>
    rw [session_advance, reached_advance]
    rcases List.mem_append.1 sound.root_mem with visited | noted
    · exact List.mem_append_left _ visited
    · exact List.mem_append_right _ (sound.mem_onward.2 (.inr noted))
  case last_mem =>
    intro n last
    have step := t.advance_spec
    generalize t.advance = t' at step last
    cases step with
    | stays is_over => exact sound.last_mem n last
    | ended live no_more => cases last
    | visits live next =>
        rw [← Option.some.inj last]
        exact List.mem_append_right _ (List.mem_singleton.2 rfl)
  case parent_left =>
    intro n mem p parent
    rw [reached_advance] at mem
    rw [session_advance] at parent
    exact sound.left_advance.2 (sound.mem_visited_of_parent mem parent)
  case parent_first =>
    intro front n back split p parent
    rw [session_advance] at parent
    have step := t.advance_spec
    generalize t.advance = t' at step split
    cases step with
    | stays is_over => exact sound.parent_first front n back split p parent
    | ended live no_more => exact sound.parent_first front n back split p parent
    | @visits m rest live next =>
        rcases List.eq_nil_or_concat back with rfl | ⟨back, last, rfl⟩
        · obtain ⟨rfl, same⟩ := List.append_inj' split rfl
          rw [← (List.cons.inj same).1] at parent
          refine sound.mem_visited_of_parent ?_ parent
          rw [next]
          exact List.mem_append_right _ List.mem_cons_self
        · rw [List.concat_eq_append, ← List.cons_append, ← List.append_assoc] at split
          exact sound.parent_first front n back (List.append_inj' split rfl).1 p parent
  case siblings =>
    intro p
    rw [session_advance, reached_advance]
    exact sound.siblings_onward p

end Sound

/-! ### Turns -/

variable [DecidableEq κ] {turns : List (Turn ν κ)}

/-- One turn of a tour. -/
def turn (t : Tour ν κ) : Turn ν κ → Tour ν κ
  | .advance => t.advance
  | .command c => { t with session := (t.session.act c).1 }

/-- Turns of a tour, one after the other. -/
def play (t : Tour ν κ) : List (Turn ν κ) → Tour ν κ
  | [] => t
  | turn :: turns => (t.turn turn).play turns

theorem play_append (t : Tour ν κ) (turns later : List (Turn ν κ)) :
    t.play (turns ++ later) = (t.play turns).play later := by
  induction turns generalizing t with
  | nil => rfl
  | cons turn turns ih => exact ih (t.turn turn)

namespace Sound

/-- Commands may only add nodes, and these are not reached yet. -/
theorem command (sound : t.Sound) (c : Command ν κ) : (t.turn (.command c)).Sound := by
  have grows := (t.session.change_act c).grows sound.session.tree
  have parentOf_eq (n : Node ν) (mem : n ∈ t.reached) := grows.parentOf n (sound.mem_nodes n mem)
  constructor
  case session => exact sound.session.act c
  case nodup => exact sound.nodup
  case mem_nodes => exact fun n mem => grows.nodes.subset (sound.mem_nodes n mem)
  case root_mem =>
    rw [turn, grows.root]
    exact sound.root_mem
  case last_mem => exact sound.last_mem
  case parent_left =>
    intro n mem p parent
    rw [turn, parentOf_eq n mem] at parent
    exact sound.parent_left n mem p parent
  case parent_first =>
    intro front n back split p parent
    have mem : n ∈ t.visited := split ▸ List.mem_append_right _ List.mem_cons_self
    rw [turn, parentOf_eq n (List.mem_append_left _ mem)] at parent
    exact sound.parent_first front n back split p parent
  case siblings =>
    intro p
    refine List.IsPrefix.trans ?_ (grows.childrenOf p)
    have same : t.reached.filter ((t.session.act c).1.hierarchy.parentOf · = some p) =
        t.reached.filter (t.session.hierarchy.parentOf · = some p) :=
      List.filter_congr fun n mem => by rw [parentOf_eq n mem]
    rw [turn, reached] at *
    exact same ▸ sound.siblings p

theorem turn (sound : t.Sound) : ∀ next : Turn ν κ, (t.turn next).Sound
  | .advance => sound.advance
  | .command c => sound.command c

theorem play (sound : t.Sound) (turns : List (Turn ν κ)) : (t.play turns).Sound := by
  induction turns generalizing t with
  | nil => exact sound
  | cons next turns ih => exact ih (sound.turn next)

/-- No turn removes a node or puts it elsewhere. -/
theorem grows_turn (sound : t.Sound) :
    ∀ next : Turn ν κ, t.session.hierarchy.Grows (t.turn next).session.hierarchy
  | .advance => by
      rw [Tour.turn, session_advance]
      exact .refl _
  | .command c => (t.session.change_act c).grows sound.session.tree

theorem grows_play (sound : t.Sound) (turns : List (Turn ν κ)) :
    t.session.hierarchy.Grows (t.play turns).session.hierarchy := by
  induction turns generalizing t with
  | nil => exact .refl _
  | cons next turns ih => exact (sound.grows_turn next).trans (ih (sound.turn next))

/-! ### Which nodes are reached -/

/-- A node whose parent has not been left is reached when it is left. -/
theorem reached_turn (sound : t.Sound) (parent : t.session.hierarchy.parentOf n = some p)
    (due : t.Left p → n ∈ t.reached) :
    ∀ next : Turn ν κ, (t.turn next).Left p → n ∈ (t.turn next).reached
  | .advance => fun left => by
      have visited : p ∈ t.visited := sound.left_advance.1 left
      rw [Tour.turn, reached_advance]
      by_cases last : t.last = some p
      · exact List.mem_append_right _ (sound.mem_onward.2 (.inl ⟨p, last, parent⟩))
      · rcases List.mem_append.1 (due ⟨visited, last⟩) with visited | noted
        · exact List.mem_append_left _ visited
        · exact List.mem_append_right _ (sound.mem_onward.2 (.inr noted))
  | .command c => due

theorem reached_play (sound : t.Sound) (mem : n ∈ t.session.hierarchy.nodes)
    (parent : t.session.hierarchy.parentOf n = some p) (due : t.Left p → n ∈ t.reached)
    (turns : List (Turn ν κ)) : (t.play turns).Left p → n ∈ (t.play turns).reached := by
  induction turns generalizing t with
  | nil => exact due
  | cons next turns ih =>
      have grows := sound.grows_turn next
      exact ih (sound.turn next) (grows.nodes.subset mem) ((grows.parentOf n mem).trans parent)
        (sound.reached_turn parent due next)

/-- A node that was not reached when its parent was left is never reached. -/
theorem not_reached_turn (sound : t.Sound) (parent : t.session.hierarchy.parentOf n = some p)
    (left : t.Left p) (missed : n ∉ t.reached) :
    ∀ next : Turn ν κ, (t.turn next).Left p ∧ n ∉ (t.turn next).reached
  | .advance => by
      refine ⟨sound.left_advance.2 left.1, fun mem => ?_⟩
      rw [Tour.turn, reached_advance] at mem
      rcases List.mem_append.1 mem with visited | next
      · exact missed (List.mem_append_left _ visited)
      · rcases sound.mem_onward.1 next with ⟨q, last, parent'⟩ | noted
        · rw [parent] at parent'
          exact left.2 (last.trans parent'.symm)
        · exact missed (List.mem_append_right _ noted)
  | .command c => ⟨left, missed⟩

theorem not_reached_play (sound : t.Sound) (mem : n ∈ t.session.hierarchy.nodes)
    (parent : t.session.hierarchy.parentOf n = some p) (left : t.Left p) (missed : n ∉ t.reached)
    (turns : List (Turn ν κ)) : n ∉ (t.play turns).reached := by
  induction turns generalizing t with
  | nil => exact missed
  | cons next turns ih =>
      have grows := sound.grows_turn next
      obtain ⟨left', missed'⟩ := sound.not_reached_turn parent left missed next
      exact ih (sound.turn next) (grows.nodes.subset mem) ((grows.parentOf n mem).trans parent)
        left' missed'

/-- A node that is attached is visited only if its parent is, and was not left before; and if the
walk comes to its end, then it is visited if so. -/
theorem visited_of_attached (sound : t.Sound) {child parent : Node ν}
    (accepted : t.session.Accepts child parent) (later : List (Turn ν κ)) :
    let t' := t.play (.command (.attach child parent) :: later)
    let p := t.session.hierarchy.orRoot parent
    (child ∈ t'.visited → p ∈ t'.visited ∧ ¬t.Left p) ∧
      (t'.walk = none → p ∈ t'.visited → ¬t.Left p → child ∈ t'.visited) := by
  intro t' p
  have attached := sound.turn (.command (.attach child parent))
  obtain ⟨mem, below, -⟩ := sound.session.attached accepted.1 accepted.2 []
  have missed : child ∉ t.reached := fun mem =>
    (Hierarchy.not_mem_of_contains_eq_false accepted.2).2 (sound.mem_nodes child mem)
  have sound' : t'.Sound := attached.play later
  refine ⟨fun visited => ⟨?_, fun left => ?_⟩, fun is_over visited not_left => ?_⟩
  · have parent' : t'.session.hierarchy.parentOf child = some p :=
      ((attached.grows_play later).parentOf child mem).trans below
    exact (sound'.parent_left child (List.mem_append_left _ visited) p parent').1
  · exact attached.not_reached_play mem below left missed later (List.mem_append_left _ visited)
  · rw [← reached_of_over is_over]
    exact attached.reached_play mem below (fun left => absurd left not_left) later
      ((left_iff_of_over is_over).2 visited)

end Sound

end Tour

end PointPattern
