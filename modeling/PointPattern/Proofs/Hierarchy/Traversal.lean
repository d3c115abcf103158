/-
# Every node of a hierarchy is visited once

A tour that is over has visited all nodes that were there when it began, each of them once. It
must come to its end if there are more steps than nodes that it could visit. A node that is
attached on the way is visited if the walk still has to leave its parent. As long as the hierarchy
stays as it is, the nodes to come and everything below them in recursive order are what is still
to be visited, so that the whole walk is the recursive order of the tree.
-/

import PointPattern.Proofs.Hierarchy.Tours

namespace PointPattern

variable {ν κ : Type}

/-! ## The recursive order -/

/-- The nodes of a list and everything below them, each node right before its children. -/
inductive Hierarchy.IsPreorder [DecidableEq ν] (h : Hierarchy ν κ) :
    List (Node ν) → List (Node ν) → Prop
  | nil : IsPreorder h [] []
  | cons {n : Node ν} {rest below later : List (Node ν)}
      (children : IsPreorder h (h.childrenOf n) below) (siblings : IsPreorder h rest later) :
      IsPreorder h (n :: rest) (n :: (below ++ later))

namespace Hierarchy

variable [DecidableEq ν] {h h' h'' : Hierarchy ν κ}

namespace IsPreorder

variable {n : Node ν} {nodes others visits : List (Node ν)}

/-- What is below several nodes is found one after the other. -/
theorem append_inv (order : h.IsPreorder (nodes ++ others) visits) :
    ∃ first second, visits = first ++ second ∧ h.IsPreorder nodes first ∧
      h.IsPreorder others second := by
  induction nodes generalizing visits with
  | nil => exact ⟨[], visits, rfl, .nil, order⟩
  | cons n rest ih =>
      cases order with
      | @cons _ _ below later children siblings =>
          obtain ⟨first, second, rfl, order_first, order_second⟩ := ih siblings
          refine ⟨n :: (below ++ first), second, ?_, .cons children order_first, order_second⟩
          rw [List.cons_append, List.append_assoc]

/-- There is one such order only. -/
theorem unique (order : h.IsPreorder nodes visits) (order' : h.IsPreorder nodes others) :
    visits = others := by
  induction order generalizing others with
  | nil =>
      cases order'
      rfl
  | cons children siblings ih_children ih_siblings =>
      cases order' with
      | cons children' siblings' => rw [ih_children children', ih_siblings siblings']

end IsPreorder

/-! ## Nodes that are added -/

omit [DecidableEq ν] in
theorem SameNodes.refl (h : Hierarchy ν κ) : h.SameNodes h := ⟨rfl, rfl, rfl, rfl⟩

omit [DecidableEq ν] in
theorem SameNodes.of_eq (same : h' = h) : h.SameNodes h' := same ▸ .refl h

omit [DecidableEq ν] in
theorem SameNodes.trans (first : h.SameNodes h') (second : h'.SameNodes h'') : h.SameNodes h'' :=
  ⟨second.root.trans first.root, second.nodes.trans first.nodes,
    second.parents.trans first.parents, second.children.trans first.children⟩

theorem sameNodes_of_unsubscribe {handle : Value} (accepted : h.unsubscribe handle = .ok h') :
    h.SameNodes h' := by
  obtain ⟨number, cancelled⟩ := unsubscribe_eq_ok accepted
  exact Change.sameNodes_of_cancel? cancelled

/-- A hierarchy that has gained no node has the nodes where they were. -/
theorem Change.sameNodes_of_nodes_eq (change : h.Change h') (same : h'.nodes = h.nodes) :
    h.SameNodes h' := by
  cases change with
  | none => exact .refl _
  | grafted => exact absurd same (by simp [graft])
  | subscribed accepted => exact sameNodes_of_subscribe accepted
  | cancelled cancelled => exact sameNodes_of_cancel? cancelled

theorem Change.size_le (change : h.Change h') : h'.size ≤ h.size + 1 := by
  cases change with
  | none => exact Nat.le_succ _
  | grafted => exact Nat.le_of_eq List.length_append
  | subscribed accepted => rw [size, (sameNodes_of_subscribe accepted).nodes, ← size]; omega
  | cancelled cancelled => rw [size, (sameNodes_of_cancel? cancelled).nodes, ← size]; omega

/-- The children of every node stand in the order in which they came. -/
def InOrder (h : Hierarchy ν κ) : Prop :=
  ∀ p, h.childrenOf p = h.nodes.filter (h.parentOf · = some p)

theorem inOrder_ofRoot (root : Node ν) : (ofRoot root : Hierarchy ν κ).InOrder := by
  have tree : (ofRoot root : Hierarchy ν κ).IsTree := isTree_ofRoot root
  have no_parent (n : Node ν) : (ofRoot root : Hierarchy ν κ).parentOf n = none := by
    by_cases mem : n ∈ (ofRoot root : Hierarchy ν κ).nodes
    · exact (tree.parentOf_eq_none_iff n mem).2 (List.mem_singleton.1 mem)
    · exact tree.parentOf_eq_none mem
  intro p
  have childless : (ofRoot root : Hierarchy ν κ).childrenOf p = [] := by
    refine List.eq_nil_iff_forall_not_mem.2 fun n child => ?_
    have parent := tree.mem_childrenOf.1 child
    rw [no_parent] at parent
    cases parent
  rw [childless, eq_comm, List.filter_eq_nil_iff]
  intro n _
  simp [no_parent]

theorem IsTree.inOrder_graft {child parent : Node ν} (tree : h.IsTree) (order : h.InOrder)
    (present : parent ∈ h.nodes) (absent : child ∉ h.nodes) :
    (h.graft child parent).InOrder := by
  intro p
  have old_nodes : h.nodes.filter ((h.graft child parent).parentOf · = some p) =
      h.childrenOf p := by
    rw [order p]
    refine List.filter_congr fun n mem => ?_
    rw [(tree.grows_graft present absent).parentOf n mem]
  have different : child ≠ parent := fun same => absent (same ▸ present)
  have nodes : (h.graft child parent).nodes = h.nodes ++ [child] := rfl
  rw [nodes, List.filter_append, old_nodes, childrenOf_graft, List.filter_singleton,
    parentOf_graft, if_pos rfl]
  by_cases at_parent : p = parent
  · rw [at_parent]
    simp
  · by_cases new : p = child
    · rw [if_neg at_parent, if_pos new, new, tree.childrenOf_eq_nil absent]
      simp [Ne.symm different]
    · rw [if_neg at_parent, if_neg new]
      simp [Ne.symm at_parent]

theorem Change.inOrder (change : h.Change h') (tree : h.IsTree) (order : h.InOrder) :
    h'.InOrder := by
  have of_same {h' : Hierarchy ν κ} (same : h.SameNodes h') : h'.InOrder := by
    intro p
    rw [same.childrenOf_eq, same.nodes, order p]
    refine List.filter_congr fun n _ => ?_
    rw [same.parentOf_eq]
  cases change with
  | none => exact order
  | grafted present absent =>
      exact tree.inOrder_graft order (tree.orRoot_mem present)
        (not_mem_of_contains_eq_false absent).2
  | subscribed accepted => exact of_same (sameNodes_of_subscribe accepted)
  | cancelled cancelled => exact of_same (sameNodes_of_cancel? cancelled)

end Hierarchy

namespace Session

variable [DecidableEq ν] [DecidableEq κ] {s : Session ν κ}

theorem Sound.inOrder_play (sound : s.Sound) (order : s.hierarchy.InOrder)
    (commands : List (Command ν κ)) : (s.play commands).hierarchy.InOrder := by
  induction commands generalizing s with
  | nil => exact order
  | cons c commands ih => exact ih (sound.act c) ((s.change_act c).inOrder sound.tree order)

/-- Only attachments add nodes. -/
theorem sameNodes_act (s : Session ν κ) {c : Command ν κ}
    (other : (Turn.command c).isAttachment = false) :
    s.hierarchy.SameNodes (s.act c).1.hierarchy := by
  cases c with
  | attach child parent => cases other
  | subscribe callback node =>
      rw [act, subscribe]
      split
      · exact .refl _
      · next accepted => exact Hierarchy.Change.sameNodes_of_subscribe accepted
  | unsubscribe handle =>
      rw [act, unsubscribe]
      split
      · exact .refl _
      · next accepted => exact Hierarchy.sameNodes_of_unsubscribe accepted
  | openPipeline evaluators =>
      simp only [act, openPipeline]
      split
      · exact .refl _
      · next accepted => exact Hierarchy.Change.sameNodes_of_subscribe accepted
  | close pipeline =>
      rw [act, close]
      split
      · split
        · exact .refl _
        · next accepted => exact Hierarchy.sameNodes_of_unsubscribe accepted
      · exact .refl _
  | run pipeline | update pipeline result | finish =>
      exact .of_eq (hierarchy_proceed _)
  | fail e => exact .refl _

/-- Each of them adds one. -/
theorem size_act_le (s : Session ν κ) (c : Command ν κ) : (s.act c).1.hierarchy.size ≤
    s.hierarchy.size + if (Turn.command c).isAttachment = true then 1 else 0 := by
  cases attachment : (Turn.command c).isAttachment with
  | true => exact (s.change_act c).size_le
  | false => exact Nat.le_of_eq (congrArg List.length (s.sameNodes_act attachment).nodes)

end Session

/-! ## The end of a walk -/

/-- The command of a turn, if it is one. -/
def Turn.command? : Turn ν κ → Option (Command ν κ)
  | .advance => none
  | .command c => some c

namespace Tour

variable [DecidableEq ν] {t : Tour ν κ} {n : Node ν}

theorem Sound.nodup_visited (sound : t.Sound) : t.visited.Nodup :=
  (List.nodup_append.1 sound.nodup).1

/-- A walk visits no more nodes than there are. -/
theorem Sound.length_visited_le (sound : t.Sound) :
    t.visited.length ≤ t.session.hierarchy.size := by
  have inside : t.visited ⊆ t.session.hierarchy.nodes :=
    fun n mem => sound.mem_nodes n (List.mem_append_left _ mem)
  exact (List.subperm_of_subset sound.nodup_visited inside).length_le

variable [DecidableEq κ] {turns : List (Turn ν κ)}

/-- Nothing is visited any more once a walk is over. -/
theorem turn_of_over (is_over : t.walk = none) : ∀ next : Turn ν κ,
    (t.turn next).walk = none ∧ (t.turn next).visited = t.visited
  | .advance => by
      rw [turn, advance, is_over]
      exact ⟨is_over, rfl⟩
  | .command _ => ⟨is_over, rfl⟩

theorem play_of_over (is_over : t.walk = none) (turns : List (Turn ν κ)) :
    (t.play turns).walk = none ∧ (t.play turns).visited = t.visited := by
  induction turns generalizing t with
  | nil => exact ⟨is_over, rfl⟩
  | cons next turns ih =>
      obtain ⟨is_over', visited⟩ := turn_of_over is_over next
      obtain ⟨is_over'', visited'⟩ := ih is_over'
      exact ⟨is_over'', visited'.trans visited⟩

/-- As long as a walk is not over, every step visits a node. -/
theorem length_visited_play (t : Tour ν κ) (turns : List (Turn ν κ)) :
    (t.play turns).walk = none ∨
      (t.play turns).visited.length = t.visited.length + turns.countP Turn.isAdvance := by
  induction turns generalizing t with
  | nil => exact .inr rfl
  | cons next turns ih =>
      rw [play]
      cases next with
      | command c => exact ih (t.turn (.command c))
      | advance =>
          have step := t.advance_spec
          rw [turn]
          generalize t.advance = t' at step
          cases step with
          | stays is_over => exact .inl (play_of_over is_over turns).1
          | ended live no_more => exact .inl (play_of_over rfl turns).1
          | visits live next =>
              refine (ih _).imp_right fun visits => visits.trans ?_
              rw [List.length_append, List.length_singleton, List.countP_cons, if_pos (by rfl)]
              omega

theorem size_turn_le (t : Tour ν κ) : ∀ next : Turn ν κ,
    (t.turn next).session.hierarchy.size ≤
      t.session.hierarchy.size + if next.isAttachment = true then 1 else 0
  | .advance => by
      rw [turn, session_advance]
      exact Nat.le_refl _
  | .command c => t.session.size_act_le c

/-- The steps of a walk leave the session alone. -/
theorem session_play (t : Tour ν κ) (turns : List (Turn ν κ)) :
    (t.play turns).session = t.session.play (turns.filterMap Turn.command?) := by
  induction turns generalizing t with
  | nil => rfl
  | cons next turns ih =>
      rw [play, ih]
      cases next with
      | advance =>
          rw [turn, session_advance]
          rfl
      | command c => rfl

theorem size_play_le (t : Tour ν κ) (turns : List (Turn ν κ)) :
    (t.play turns).session.hierarchy.size ≤
      t.session.hierarchy.size + turns.countP Turn.isAttachment := by
  induction turns generalizing t with
  | nil => exact Nat.le_refl _
  | cons next turns ih =>
      have first := t.size_turn_le next
      have rest := ih (t.turn next)
      rw [play, List.countP_cons]
      omega

/-- A walk is over once there were more steps than nodes that could be visited. -/
theorem Sound.over_of_many_steps (sound : t.Sound) (fresh : t.visited = [])
    (many : t.session.hierarchy.size + turns.countP Turn.isAttachment <
      turns.countP Turn.isAdvance) : (t.play turns).walk = none := by
  refine (t.length_visited_play turns).resolve_right fun visits => ?_
  have fewer := (sound.play turns).length_visited_le
  have bounded := t.size_play_le turns
  rw [fresh, List.length_nil] at visits
  omega

/-- Once a walk is over, every node that was there when it began has been visited. -/
theorem mem_visited_of_over {s : Session ν κ} (sound : s.Sound) (mem : n ∈ s.hierarchy.nodes)
    (is_over : ((ofSession s).play turns).walk = none) :
    n ∈ ((ofSession s).play turns).visited := by
  have sound' : (ofSession s).Sound := sound_ofSession sound
  have grows := sound'.grows_play turns
  have none_left (p : Node ν) : ¬(ofSession s).Left p := fun left => by cases left.1
  -- The root is reached, and with every node that is visited its children.
  have above := sound.tree.above n mem
  generalize s.hierarchy.ancestorsOf n = chain at above
  induction above with
  | @top n no_parent =>
      rw [(sound.tree.parentOf_eq_none_iff n mem).1 no_parent, ← reached_of_over is_over]
      exact grows.root ▸ (sound'.play turns).root_mem
  | @step n p chain parent rest ih =>
      have visited := ih (sound.tree.parentOf_mem parent)
      rw [← reached_of_over is_over]
      exact sound'.reached_play mem parent (fun left => absurd left (none_left p)) turns
        ((left_iff_of_over is_over).2 visited)

/-! ## A hierarchy that stays as it is -/

/-- What a walk still visits are the nodes to come and everything below them. -/
theorem Sound.preorder_onward {h : Hierarchy ν (Listener κ)} (sound : t.Sound)
    (same : h.SameNodes t.session.hierarchy)
    (still : (t.play turns).session.hierarchy.nodes = h.nodes)
    (is_over : (t.play turns).walk = none) :
    ∃ later, h.IsPreorder t.onward later ∧ (t.play turns).visited = t.visited ++ later := by
  induction turns generalizing t with
  | nil =>
      have is_over : t.walk = none := is_over
      rw [onward_of_over is_over]
      exact ⟨[], .nil, (List.append_nil _).symm⟩
  | cons next turns ih =>
      rw [Tour.play] at still is_over ⊢
      cases next with
      | command c =>
          have change := t.session.change_act c
          have later := ((sound.command c).grows_play turns).nodes
          have nodes : (t.session.act c).1.hierarchy.nodes = t.session.hierarchy.nodes := by
            have fewer := later.length_le
            rw [still, ← same.nodes] at fewer
            exact ((change.grows sound.session.tree).nodes.eq_of_length_le fewer).symm
          have unchanged := change.sameNodes_of_nodes_eq nodes
          obtain ⟨later, order, visits⟩ :=
            ih (sound.command c) (same.trans unchanged) still is_over
          have onward_eq : (t.turn (.command c)).onward = t.onward :=
            congrArg (t.last.elim [] · ++ t.ahead) (funext unchanged.childrenOf_eq)
          exact ⟨later, onward_eq ▸ order, visits⟩
      | advance =>
          have same' : h.SameNodes t.advance.session.hierarchy := by rwa [session_advance]
          have continued := ih sound.advance same' still is_over
          have step := t.advance_spec
          rw [Tour.turn]
          clear same' still is_over ih
          generalize t.advance = t' at step continued
          obtain ⟨later, order, visits⟩ := continued
          cases step with
          | stays is_over => exact ⟨later, order, visits⟩
          | ended live no_more =>
              cases order
              rw [no_more]
              exact ⟨[], .nil, visits⟩
          | @visits n rest live next =>
              have order : h.IsPreorder (h.childrenOf n ++ rest) later :=
                same.childrenOf_eq n ▸ order
              obtain ⟨first, second, rfl, children, siblings⟩ := order.append_inv
              refine ⟨n :: (first ++ second), next ▸ .cons children siblings, ?_⟩
              rw [visits, List.append_assoc]
              rfl

/-- Where nothing is attached, the walk is the recursive order of the tree. -/
theorem preorder_of_over {s : Session ν κ} (sound : s.Sound)
    (still : ((ofSession s).play turns).session.hierarchy.nodes = s.hierarchy.nodes)
    (is_over : ((ofSession s).play turns).walk = none) :
    s.hierarchy.IsPreorder [s.hierarchy.root] ((ofSession s).play turns).visited := by
  obtain ⟨later, order, visits⟩ :=
    (sound_ofSession sound).preorder_onward (.refl _) still is_over
  rw [visits]
  exact order

/-- It is as long as the hierarchy is large. -/
theorem length_visited_of_over {s : Session ν κ} (sound : s.Sound)
    (still : ((ofSession s).play turns).session.hierarchy.nodes = s.hierarchy.nodes)
    (is_over : ((ofSession s).play turns).walk = none) :
    ((ofSession s).play turns).visited.length = s.hierarchy.size := by
  have most := ((sound_ofSession sound).play turns).length_visited_le
  rw [Hierarchy.size, still] at most
  refine Nat.le_antisymm most (List.subperm_of_subset sound.tree.nodup fun n mem => ?_).length_le
  exact mem_visited_of_over sound mem is_over

/-- So many steps through a hierarchy without any command in between. -/
def alone (s : Session ν κ) (steps : ℕ) : Tour ν κ :=
  (ofSession s).play (List.replicate steps .advance)

theorem alone_succ (s : Session ν κ) (steps : ℕ) :
    alone s (steps + 1) = (alone s steps).advance := by
  rw [alone, List.replicate_succ', play_append]
  rfl

@[simp]
theorem session_alone (s : Session ν κ) (steps : ℕ) : (alone s steps).session = s := by
  induction steps with
  | zero => rfl
  | succ steps ih => rw [alone_succ, session_advance, ih]

/-- Steps alone visit what the walk visits. -/
theorem visited_play_advance {w : Walk ν} (live : t.walk = some w) (steps : ℕ) :
    (t.play (List.replicate steps .advance)).visited =
      t.visited ++ Walk.take t.session.hierarchy steps w := by
  induction steps generalizing t w with
  | zero => exact (List.append_nil _).symm
  | succ steps ih =>
      rw [List.replicate_succ, play, turn, advance, live, Walk.take]
      dsimp only
      cases w.next t.session.hierarchy with
      | none => exact (play_of_over rfl _).2.trans (List.append_nil _).symm
      | some found =>
          refine (ih rfl).trans ?_
          rw [List.append_assoc]
          rfl

/-- Steps alone visit the tree in its recursive order. -/
theorem isPreorder_preorder {s : Session ν κ} (sound : s.Sound) :
    s.hierarchy.IsPreorder [s.hierarchy.root] s.hierarchy.preorder := by
  have still (steps : ℕ) : (alone s steps).session.hierarchy.nodes = s.hierarchy.nodes := by
    rw [session_alone]
  have walked : (alone s s.hierarchy.size).visited = s.hierarchy.preorder :=
    visited_play_advance rfl _
  rw [← walked]
  rcases (ofSession s).length_visited_play (List.replicate s.hierarchy.size .advance) with
    is_over | visits
  · exact preorder_of_over sound (still _) is_over
  · -- The walk has visited all nodes, and the step that ends it visits none.
    have is_over : (alone s (s.hierarchy.size + 1)).walk = none := by
      apply (sound_ofSession sound).over_of_many_steps rfl
      simp [Turn.isAttachment, Turn.isAdvance, List.countP_replicate, ofSession]
    have all : (alone s s.hierarchy.size).visited.length = s.hierarchy.size := by
      refine visits.trans ?_
      simp [Turn.isAdvance, List.countP_replicate, ofSession]
    have order : s.hierarchy.IsPreorder [s.hierarchy.root]
        (alone s (s.hierarchy.size + 1)).visited := preorder_of_over sound (still _) is_over
    have length : (alone s (s.hierarchy.size + 1)).visited.length = s.hierarchy.size :=
      length_visited_of_over sound (still _) is_over
    rw [alone_succ, visited_advance] at order length
    rw [List.length_append, all] at length
    rwa [List.length_eq_zero_iff.1 (Nat.add_eq_left.1 length), List.append_nil] at order

/-! ## Every walk -/

/-- What a walk owes to the hierarchy, if it began at the nodes `first` and the tree has grown to
`h` meanwhile. -/
structure Traverses (first : List (Node ν)) (t : Tour ν κ) : Prop where
  /-- The next step finds all that it looks up. -/
  finds : t.Finds
  nodup : t.visited.Nodup
  complete : t.walk = none → ∀ n ∈ first, t.visited.count n = 1
  parent_first : ∀ front n back, t.visited = front ++ n :: back →
    ∀ p, t.session.hierarchy.parentOf n = some p → p ∈ front
  /-- The children of a node come in the order in which they were attached, and none is left out
  before one that comes. -/
  siblings : ∀ p, t.visited.filter (t.session.hierarchy.parentOf · = some p) <+:
    t.session.hierarchy.nodes.filter (t.session.hierarchy.parentOf · = some p)

theorem traverses_play {s : Session ν κ} (sound : s.Sound) (order : s.hierarchy.InOrder)
    (turns : List (Turn ν κ)) : ((ofSession s).play turns).Traverses s.hierarchy.nodes := by
  have walked : ((ofSession s).play turns).Sound := (sound_ofSession sound).play turns
  constructor
  case finds => exact walked.finds
  case nodup => exact walked.nodup_visited
  case complete =>
    exact fun is_over n mem =>
      List.count_eq_one_of_mem walked.nodup_visited (mem_visited_of_over sound mem is_over)
  case parent_first => exact walked.parent_first
  case siblings =>
    intro p
    have ordered : ((ofSession s).play turns).session.hierarchy.InOrder := by
      rw [session_play]
      exact sound.inOrder_play order _
    rw [← ordered p]
    refine List.IsPrefix.trans ?_ (walked.siblings p)
    rw [reached, List.filter_append]
    exact List.prefix_append _ _

/-- Take any hierarchy that commands lead to from a root, and a walk that goes through it step by
step while any commands are given in between. The walk finds every node that it looks up, visits
none twice, each after its parent and the children of a node as they were attached; once it is
over, it has visited every node that was there when it began. It is over after more steps than
there were nodes then and attachments since. A node that is attached on the way is visited only if
its parent is, and was not left before; and if the walk is over, then it is visited if so. Where
nothing was attached, the walk is the recursive order of the tree. -/
theorem play_traverses_growing (root : Node ν) (commands : List (Command ν κ))
    (turns : List (Turn ν κ)) :
    let s := (Session.ofRoot root : Session ν κ).play commands
    let t := (ofSession s).play turns
    t.Traverses s.hierarchy.nodes ∧
      (s.hierarchy.size + turns.countP Turn.isAttachment < turns.countP Turn.isAdvance →
        t.walk = none) ∧
      (∀ before child parent later, turns = before ++ .command (.attach child parent) :: later →
        let m := (ofSession s).play before
        let p := m.session.hierarchy.orRoot parent
        m.session.Accepts child parent →
          (child ∈ t.visited → p ∈ t.visited ∧ ¬m.Left p) ∧
            (t.walk = none → p ∈ t.visited → ¬m.Left p → child ∈ t.visited)) ∧
      (t.session.hierarchy.nodes = s.hierarchy.nodes → t.walk = none →
        s.hierarchy.IsPreorder [s.hierarchy.root] t.visited ∧ t.visited = s.hierarchy.preorder ∧
          t.visited.length = s.hierarchy.size) := by
  intro s t
  have sound : s.Sound := (Session.sound_ofRoot root).play commands
  have order : s.hierarchy.InOrder :=
    (Session.sound_ofRoot root).inOrder_play (Hierarchy.inOrder_ofRoot root) commands
  refine ⟨traverses_play sound order turns, (sound_ofSession sound).over_of_many_steps rfl, ?_, ?_⟩
  · rintro before child parent later split m p accepted
    have rest : t = m.play (.command (.attach child parent) :: later) := by
      rw [← play_append, ← split]
    rw [rest]
    exact ((sound_ofSession sound).play before).visited_of_attached accepted later
  · intro still is_over
    have visits : s.hierarchy.IsPreorder [s.hierarchy.root] t.visited :=
      preorder_of_over sound still is_over
    exact ⟨visits, visits.unique (isPreorder_preorder sound),
      length_visited_of_over sound still is_over⟩

/-- Three nodes are attached during a walk: one below the node visited last, one below a node
that is still to come, and one below the root after it was left. The last one is not visited. A
walk that nothing is attached to visits the tree as it is. -/
theorem play_traverses_growing_threeAttachments :
    let s := (Session.ofRoot (.object 0) : Session ℕ String).play [.attach (.object 1) .null]
    let t := (ofSession s).play [.advance, .command (.attach (.object 2) .null),
      .command (.attach (.object 3) (.object 1)), .advance,
      .command (.attach (.object 4) .null), .advance, .advance, .advance, .advance]
    let u := (ofSession s).play [.advance, .command (.subscribe "watch" .null), .advance, .advance]
    t.Traverses s.hierarchy.nodes ∧ t.walk = none ∧
      t.visited = [.object 0, .object 1, .object 3, .object 2] ∧ .object 3 ∈ t.visited ∧
      .object 4 ∉ t.visited ∧ u.visited = s.hierarchy.preorder := by
  have walks := play_traverses_growing (.object 0) [.attach (.object 1) .null]
    ([.advance, .command (.attach (.object 2) .null),
      .command (.attach (.object 3) (.object 1)), .advance,
      .command (.attach (.object 4) .null), .advance, .advance, .advance, .advance] :
      List (Turn ℕ String))
  have alone := play_traverses_growing (.object 0) [.attach (.object 1) .null]
    ([.advance, .command (.subscribe "watch" .null), .advance, .advance] : List (Turn ℕ String))
  have is_over := walks.2.1 (by decide)
  have third := walks.2.2.1 [.advance, .command (.attach (.object 2) .null)] (.object 3)
    (.object 1) _ rfl (by decide)
  have fourth := walks.2.2.1 [.advance, .command (.attach (.object 2) .null),
    .command (.attach (.object 3) (.object 1)), .advance] (.object 4) .null _ rfl (by decide)
  refine ⟨walks.1, is_over, by decide, ?_, fun visited => ?_, ?_⟩
  · exact third.2 is_over (by decide) fun left => absurd left.1 (by decide)
  · exact (fourth.1 visited).2 ⟨by decide, by decide⟩
  · exact (alone.2.2.2 (by decide) (by decide)).2.1

end Tour

end PointPattern
