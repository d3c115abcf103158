/-
# How deliveries end

A delivery that is over has either come to its end, or one of its calls has failed, and then the
failure is the last thing that a listener did. If no listener adds a node, the hierarchy is from
the attachment on what it was before, with one more node: the last child of its parent.
-/

import PointPattern.Proofs.Hierarchy.Delivery

namespace PointPattern

/-! ## Hierarchies with one more node -/

namespace Hierarchy

variable {ν κ : Type} [DecidableEq ν] {h h' h'' : Hierarchy ν κ} {child parent : Node ν}

/-- A hierarchy has gained one new node, which is the last child of its parent, and its nodes are
otherwise what they were. -/
structure Gains (h h' : Hierarchy ν κ) (child parent : Node ν) : Prop where
  new : child ∉ h.nodes
  root : h'.root = h.root
  nodes : h'.nodes = h.nodes ++ [child]
  parentOf : ∀ n, h'.parentOf n = if n = child then some parent else h.parentOf n
  childrenOf : ∀ n, h'.childrenOf n =
    if n = parent then h.childrenOf n ++ [child] else h.childrenOf n

theorem IsTree.gains_graft (tree : h.IsTree) (absent : child ∉ h.nodes) :
    h.Gains (h.graft child parent) child parent where
  new := absent
  root := rfl
  nodes := rfl
  parentOf n := parentOf_graft h child parent n
  childrenOf n := by
    rw [childrenOf_graft]
    by_cases at_parent : n = parent
    · rw [if_pos at_parent, if_pos at_parent, at_parent]
    · rw [if_neg at_parent, if_neg at_parent]
      split
      · next is_child => rw [is_child, tree.childrenOf_eq_nil absent]
      · rfl

/-- Without new nodes nobody has a new parent. -/
theorem Grows.parentOf_eq (grows : h.Grows h') (tree : h.IsTree) (tree' : h'.IsTree)
    (nodes : h'.nodes = h.nodes) (n : Node ν) : h'.parentOf n = h.parentOf n := by
  by_cases mem : n ∈ h.nodes
  · exact grows.parentOf n mem
  · rw [tree.parentOf_eq_none mem, tree'.parentOf_eq_none (nodes ▸ mem)]

/-- Without new nodes nobody has a new child. -/
theorem Grows.childrenOf_eq (grows : h.Grows h') (tree : h.IsTree) (tree' : h'.IsTree)
    (nodes : h'.nodes = h.nodes) (p : Node ν) : h'.childrenOf p = h.childrenOf p := by
  have counts (n : Node ν) : (h.childrenOf p).count n = (h'.childrenOf p).count n := by
    rw [tree.count_childrenOf, tree'.count_childrenOf, grows.parentOf_eq tree tree' nodes]
  have length := (List.perm_iff_count.2 counts).length_eq
  exact ((grows.childrenOf p).eq_of_length length).symm

theorem Gains.of_grows (gains : h.Gains h' child parent) (grows : h'.Grows h'')
    (tree' : h'.IsTree) (tree'' : h''.IsTree) (nodes : h''.nodes = h'.nodes) :
    h.Gains h'' child parent where
  new := gains.new
  root := grows.root.trans gains.root
  nodes := nodes.trans gains.nodes
  parentOf n := (grows.parentOf_eq tree' tree'' nodes n).trans (gains.parentOf n)
  childrenOf n := (grows.childrenOf_eq tree' tree'' nodes n).trans (gains.childrenOf n)

end Hierarchy

/-! ## Runs while listeners are notified -/

namespace Session

variable {ν κ : Type} [DecidableEq ν] [DecidableEq κ]
variable {s : Session ν κ} {d : Delivery ν κ} {rest : List (Delivery ν κ)}

/-- The nodes of all states of a run are those of a tree that grows. -/
theorem Sound.trace (sound : s.Sound) (commands : List (Command ν κ)) :
    ∀ x ∈ s.trace commands, x.1.Sound ∧ s.hierarchy.Grows x.1.hierarchy := by
  induction commands generalizing s with
  | nil => exact fun x mem => by cases mem
  | cons command commands ih =>
      have grows : s.hierarchy.Grows (s.act command).1.hierarchy :=
        (s.change_act command).grows sound.tree
      intro x mem
      rcases List.mem_cons.1 mem with rfl | later
      · exact ⟨sound.act command, grows⟩
      · obtain ⟨sound', grows'⟩ := ih (sound.act command) x later
        exact ⟨sound', grows.trans grows'⟩

/-- Going on with deliveries raises nothing. -/
theorem proceed_ne_raised (s : Session ν κ) (e : Error) : s.proceed.2 ≠ .raised e := by
  rw [proceed]
  split
  · exact fun impossible => by cases impossible
  · split <;> exact fun impossible => by cases impossible

/-- Only a listener that fails brings a delivery to an early end. -/
theorem eq_fail_of_raised {command : Command ν κ} {e : Error}
    (raised : (s.act command).2 = .raised e)
    (fewer : (s.act command).1.pending.length < s.pending.length) : command = .fail e := by
  have move := s.move_act command
  generalize s.act command = x at *
  cases move with
  | still pending no_call =>
      rw [pending] at fewer
      exact absurd fewer (Nat.lt_irrefl _)
  | attached present absent => exact absurd raised (proceed_ne_raised _ e)
  | updated pipeline result => exact absurd raised (proceed_ne_raised _ e)
  | finished => exact absurd raised (proceed_ne_raised _ e)
  | failed e' => cases raised; rfl

/-- A delivery that is over has come to its end, or a call has failed. In the second case the
delivery had failed at once, or a listener gave up last. -/
theorem Fate.ends {s₀ : Session ν κ} {x : Session ν κ × Signal ν κ} (fate : Fate s₀ d rest x)
    (commands : List (Command ν κ))
    (under_way : ∀ y ∈ (x :: x.1.trace commands).dropLast, rest.length < y.1.pending.length)
    {y : Session ν κ × Signal ν κ} (last : (x :: x.1.trace commands).getLast? = some y)
    (is_over : y.1.pending.length = rest.length) :
    y.2 = .returned ∨ ∃ e, y.2 = .raised e ∧
      (commands = [] ∧ x.2 = .raised e ∨ commands.getLast? = some (.fail e)) := by
  induction commands generalizing s₀ d x with
  | nil =>
      obtain rfl : x = y := Option.some.inj last
      cases fate with
      | kept pending newer =>
          rw [pending, List.length_append, List.length_cons] at is_over
          omega
      | advanced advances => exact absurd is_over (Nat.succ_ne_self _)
      | completed no_calls passes => exact .inl rfl
      | failed e => exact .inr ⟨e, rfl, .inl ⟨rfl, rfl⟩⟩
  | cons command commands ih =>
      have still : rest.length < x.1.pending.length := under_way x List.mem_cons_self
      have last' : (x.1.act command :: (x.1.act command).1.trace commands).getLast? = some y := last
      have under_way' := under_way_tail under_way
      have going_on : ∃ inner d', x.1.pending = inner ++ d' :: rest := by
        cases fate with
        | kept pending newer => exact ⟨_, _, pending⟩
        | advanced advances => exact ⟨[], _, rfl⟩
        | completed no_calls passes => exact absurd still (Nat.lt_irrefl _)
        | failed e => exact absurd still (Nat.lt_irrefl _)
      obtain ⟨inner, d', pending⟩ := going_on
      rcases ih (x.1.fate_act pending command) under_way' last' with
        returned | ⟨e, raised, ⟨rfl, raised'⟩ | gave_up⟩
      · exact .inl returned
      · obtain rfl : x.1.act command = y := Option.some.inj last'
        obtain rfl := eq_fail_of_raised raised' (is_over.symm ▸ still)
        exact .inr ⟨e, raised, .inr rfl⟩
      · refine .inr ⟨e, raised, .inr ?_⟩
        rw [List.getLast?_cons, gave_up]
        rfl

/-- The runs that are considered while a node is delivered: the delivery is under way until the
last command, and then it is over; no listener adds a node. -/
structure HeardOut (older : ℕ) (trace : List (Session ν κ × Signal ν κ)) : Prop where
  under_way : ∀ x ∈ trace.dropLast, older < x.1.pending.length
  is_over : ∀ x, trace.getLast? = some x → x.1.pending.length = older
  calm : ∀ x ∈ trace, ∀ y ∈ trace, x.1.hierarchy.nodes = y.1.hierarchy.nodes

variable {child parent : Node ν} {commands : List (Command ν κ)}

/-- Once everybody has been heard, the delivery of a node has come to its end or was ended by a
listener that failed. -/
theorem HeardOut.ends (present : s.hierarchy.contains (s.hierarchy.orRoot parent) = true)
    (absent : s.hierarchy.contains child = false)
    (heard : HeardOut s.pending.length (s.trace (.attach child parent :: commands))) :
    EndsAt s.pending.length (s.trace (.attach child parent :: commands)) ∨
      ∃ t e, (s.trace (.attach child parent :: commands)).getLast? = some (t, .raised e) ∧
        commands.getLast? = some (.fail e) := by
  let grafted := s.hierarchy.graft child (s.hierarchy.orRoot parent)
  let s₀ : Session ν κ := { s with
    hierarchy := grafted
    pending := notice grafted child (s.hierarchy.orRoot parent) :: s.pending }
  have begun : s.act (.attach child parent) = s₀.proceed := act_attach present absent
  have fate : Fate s₀ _ s.pending s₀.proceed := fate_proceed rfl
  rw [← begun] at fate
  obtain ⟨y, last⟩ : ∃ y, (s.trace (.attach child parent :: commands)).getLast? = some y :=
    ⟨_, List.getLast?_eq_some_getLast (List.cons_ne_nil _ _)⟩
  have is_over := heard.is_over y last
  obtain ⟨t, signal⟩ := y
  rcases fate.ends commands heard.under_way last is_over with
    returned | ⟨e, raised, ⟨rfl, at_once⟩ | gave_up⟩
  · exact .inl ⟨t, returned ▸ last, is_over⟩
  · rw [begun] at at_once
    exact absurd at_once (proceed_ne_raised s₀ e)
  · exact .inr ⟨t, e, raised ▸ last, gave_up⟩

/-- A node that is attached is in its place from then on. -/
theorem HeardOut.gains (sound : s.Sound)
    (present : s.hierarchy.contains (s.hierarchy.orRoot parent) = true)
    (absent : s.hierarchy.contains child = false) {older : ℕ}
    (heard : HeardOut older (s.trace (.attach child parent :: commands))) :
    ∀ x ∈ s.trace (.attach child parent :: commands),
      s.hierarchy.Gains x.1.hierarchy child (s.hierarchy.orRoot parent) := by
  have begun : s.hierarchy.Gains (s.act (.attach child parent)).1.hierarchy child
      (s.hierarchy.orRoot parent) := by
    rw [act_attach present absent, deliver, hierarchy_proceed]
    exact sound.tree.gains_graft (Hierarchy.not_mem_of_contains_eq_false absent).2
  have sound' := sound.act (.attach child parent)
  intro x mem
  have same := heard.calm x mem _ List.mem_cons_self
  rcases List.mem_cons.1 mem with rfl | later
  · exact begun
  · obtain ⟨sound'', grows⟩ := sound'.trace commands x later
    exact begun.of_grows grows sound'.tree sound''.tree same

end Session

end PointPattern
