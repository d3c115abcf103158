/-
# The nodes of a hierarchy form a tree

The maps of a hierarchy are consistent: they have the same keys, the root alone has no
parent, every other node stands once among the children of its parent and nowhere else,
and the way upwards from a node ends at the root without meeting a node twice. What makes
this stable is that a node which is attached is new and goes below a node that is there,
so that no way upwards that existed before can lead through it.
-/

import PointPattern.Hierarchy
import Mathlib.Data.List.Nodup
import Mathlib.Data.List.Perm.Subperm

namespace PointPattern

namespace Hierarchy

variable {ν κ : Type} [DecidableEq ν]

/-- The nodes above a node, found by going from parent to parent until there is none. -/
inductive Above (h : Hierarchy ν κ) : Node ν → List (Node ν) → Prop
  | top {n : Node ν} (no_parent : h.parentOf n = none) : Above h n []
  | step {n p : Node ν} {chain : List (Node ν)} (parent : h.parentOf n = some p)
      (rest : Above h p chain) : Above h n (p :: chain)

/-- The maps of a hierarchy are those of a tree. -/
structure IsTree (h : Hierarchy ν κ) : Prop where
  nodup : h.nodes.Nodup
  root_mem : h.root ∈ h.nodes
  /-- The absent node is a node only as a root. -/
  root_of_null_mem : .null ∈ h.nodes → h.root = .null
  keys_parents : h.parents.keys = h.nodes
  keys_children : h.children.keys = h.nodes
  /-- The root is the only node without a parent. -/
  parentOf_eq_none_iff : ∀ n ∈ h.nodes, h.parentOf n = none ↔ n = h.root
  parentOf_mem : ∀ {n p : Node ν}, h.parentOf n = some p → p ∈ h.nodes
  /-- A node stands once among the children of its parent, and nowhere else. -/
  count_childrenOf : ∀ p n : Node ν,
    (h.childrenOf p).count n = if h.parentOf n = some p then 1 else 0
  /-- The way upwards comes to an end. -/
  above : ∀ n ∈ h.nodes, h.Above n (h.ancestorsOf n)
  /-- The way upwards meets no node twice. -/
  nodup_path : ∀ n ∈ h.nodes, (n :: h.ancestorsOf n).Nodup
  /-- The way upwards ends at the root. -/
  getLast_path : ∀ n ∈ h.nodes, (n :: h.ancestorsOf n).getLast (List.cons_ne_nil _ _) = h.root

/-- No node is removed or put elsewhere, and new children come last. -/
structure Grows (h h' : Hierarchy ν κ) : Prop where
  root : h'.root = h.root
  nodes : h.nodes <+: h'.nodes
  parentOf : ∀ n ∈ h.nodes, h'.parentOf n = h.parentOf n
  childrenOf : ∀ n, h.childrenOf n <+: h'.childrenOf n

/-- Two hierarchies of the same nodes, whoever listens to them. -/
structure SameNodes (h h' : Hierarchy ν κ) : Prop where
  root : h'.root = h.root
  nodes : h'.nodes = h.nodes
  parents : h'.parents = h.parents
  children : h'.children = h.children

variable {h h' h'' : Hierarchy ν κ} {n child parent : Node ν} {chain : List (Node ν)}

/-! ## The way upwards -/

namespace Above

/-- The way upwards depends on the parents of the nodes on it alone. -/
theorem congr (above : h.Above n chain)
    (same : ∀ m ∈ n :: chain, h'.parentOf m = h.parentOf m) : h'.Above n chain := by
  induction above with
  | top no_parent =>
      apply Above.top
      rw [same _ List.mem_cons_self, no_parent]
  | step parent rest ih =>
      apply Above.step
      · rw [same _ List.mem_cons_self, parent]
      · exact ih fun m mem => same m (List.mem_cons_of_mem _ mem)

theorem climb_eq (above : h.Above n chain) {steps : ℕ} (enough : chain.length ≤ steps) :
    h.climb steps n = chain := by
  induction above generalizing steps with
  | top no_parent =>
      cases steps with
      | zero => rfl
      | succ steps => rw [climb, no_parent]
  | step parent rest ih =>
      cases steps with
      | zero => cases enough
      | succ steps =>
          rw [climb, parent]
          exact congrArg _ (ih (Nat.le_of_succ_le_succ enough))

/-- A way that meets no node twice has fewer steps than there are nodes. -/
theorem ancestorsOf_eq (above : h.Above n chain) (nodup : (n :: chain).Nodup)
    (inside : n :: chain ⊆ h.nodes) : h.ancestorsOf n = chain := by
  apply above.climb_eq
  have fewer : (n :: chain).length ≤ h.nodes.length :=
    (List.subperm_of_subset nodup inside).length_le
  exact Nat.le_of_succ_le fewer

theorem mem_nodes (above : h.Above n chain)
    (parentOf_mem : ∀ {n p : Node ν}, h.parentOf n = some p → p ∈ h.nodes) :
    chain ⊆ h.nodes := by
  induction above with
  | top no_parent => exact List.nil_subset _
  | step parent rest ih => exact List.cons_subset.2 ⟨parentOf_mem parent, ih⟩

end Above

namespace IsTree

theorem path_subset (tree : h.IsTree) (mem : n ∈ h.nodes) : n :: h.ancestorsOf n ⊆ h.nodes :=
  List.cons_subset.2 ⟨mem, (tree.above n mem).mem_nodes tree.parentOf_mem⟩

theorem parentOf_eq_none (tree : h.IsTree) (absent : n ∉ h.nodes) : h.parentOf n = none := by
  rw [parentOf, (h.parents.get?_eq_none_iff n).2 (by rwa [tree.keys_parents])]
  rfl

theorem childrenOf_eq_nil (tree : h.IsTree) (absent : n ∉ h.nodes) : h.childrenOf n = [] := by
  rw [childrenOf, (h.children.get?_eq_none_iff n).2 (by rwa [tree.keys_children])]
  rfl

end IsTree

/-! ## Growth -/

namespace Grows

theorem refl (h : Hierarchy ν κ) : h.Grows h :=
  ⟨rfl, List.prefix_rfl, fun _ _ => rfl, fun _ => List.prefix_rfl⟩

theorem trans (first : h.Grows h') (second : h'.Grows h'') : h.Grows h'' where
  root := second.root.trans first.root
  nodes := first.nodes.trans second.nodes
  parentOf n mem := (second.parentOf n (first.nodes.subset mem)).trans (first.parentOf n mem)
  childrenOf n := (first.childrenOf n).trans (second.childrenOf n)

theorem above (grows : h.Grows h') (tree : h.IsTree) (mem : n ∈ h.nodes) :
    h'.Above n (h.ancestorsOf n) :=
  (tree.above n mem).congr fun m on_path => grows.parentOf m (tree.path_subset mem on_path)

/-- The way upwards from a node stays what it is. -/
theorem ancestorsOf_eq (grows : h.Grows h') (tree : h.IsTree) (mem : n ∈ h.nodes) :
    h'.ancestorsOf n = h.ancestorsOf n :=
  (grows.above tree mem).ancestorsOf_eq (tree.nodup_path n mem)
    fun _ on_path => grows.nodes.subset (tree.path_subset mem on_path)

end Grows

namespace SameNodes

theorem parentOf_eq (same : h.SameNodes h') (n : Node ν) : h'.parentOf n = h.parentOf n := by
  rw [parentOf, parentOf, same.parents]

theorem childrenOf_eq (same : h.SameNodes h') (n : Node ν) :
    h'.childrenOf n = h.childrenOf n := by
  rw [childrenOf, childrenOf, same.children]

theorem grows (same : h.SameNodes h') : h.Grows h' where
  root := same.root
  nodes := same.nodes ▸ List.prefix_rfl
  parentOf n _ := same.parentOf_eq n
  childrenOf n := same.childrenOf_eq n ▸ List.prefix_rfl

theorem isTree (same : h.SameNodes h') (tree : h.IsTree) : h'.IsTree := by
  have ancestors_eq (n : Node ν) (mem : n ∈ h.nodes) : h'.ancestorsOf n = h.ancestorsOf n :=
    same.grows.ancestorsOf_eq tree mem
  constructor
  case nodup => rw [same.nodes]; exact tree.nodup
  case root_mem => rw [same.root, same.nodes]; exact tree.root_mem
  case root_of_null_mem => rw [same.root, same.nodes]; exact tree.root_of_null_mem
  case keys_parents => rw [same.parents, same.nodes]; exact tree.keys_parents
  case keys_children => rw [same.children, same.nodes]; exact tree.keys_children
  case parentOf_eq_none_iff =>
    intro n mem
    rw [same.nodes] at mem
    rw [same.parentOf_eq, same.root]
    exact tree.parentOf_eq_none_iff n mem
  case parentOf_mem =>
    intro n p parent
    rw [same.parentOf_eq] at parent
    rw [same.nodes]
    exact tree.parentOf_mem parent
  case count_childrenOf =>
    intro p n
    rw [same.childrenOf_eq, same.parentOf_eq]
    exact tree.count_childrenOf p n
  case above =>
    intro n mem
    rw [same.nodes] at mem
    rw [ancestors_eq n mem]
    exact same.grows.above tree mem
  case nodup_path =>
    intro n mem
    rw [same.nodes] at mem
    rw [ancestors_eq n mem]
    exact tree.nodup_path n mem
  case getLast_path =>
    intro n mem
    rw [same.nodes] at mem
    simp only [ancestors_eq n mem, same.root]
    exact tree.getLast_path n mem

end SameNodes

/-! ## Attaching -/

theorem parentOf_graft (h : Hierarchy ν κ) (child parent n : Node ν) :
    (h.graft child parent).parentOf n = if n = child then some parent else h.parentOf n := by
  simp only [parentOf, graft, Ledger.get?_put]
  split <;> rfl

theorem childrenOf_graft (h : Hierarchy ν κ) (child parent n : Node ν) :
    (h.graft child parent).childrenOf n =
      if n = parent then h.childrenOf parent ++ [child]
      else if n = child then [] else h.childrenOf n := by
  rw [childrenOf, graft, Ledger.get?_put, Ledger.get?_put]
  split
  · rfl
  · split <;> rfl

namespace IsTree

variable (tree : h.IsTree) (present : parent ∈ h.nodes) (absent : child ∉ h.nodes)

include tree present absent

theorem grows_graft : h.Grows (h.graft child parent) := by
  have different : child ≠ parent := fun same => absent (same ▸ present)
  constructor
  case root => rfl
  case nodes => exact List.prefix_append _ _
  case parentOf =>
    intro n mem
    have old : n ≠ child := fun same => absent (same ▸ mem)
    rw [parentOf_graft, if_neg old]
  case childrenOf =>
    intro n
    rw [childrenOf_graft]
    split
    · next at_parent => rw [at_parent]; exact List.prefix_append _ _
    · split
      · next new =>
          have none_before : h.childrenOf n = [] := new ▸ tree.childrenOf_eq_nil absent
          exact none_before ▸ List.prefix_rfl
      · exact List.prefix_rfl

/-- A new node has the way upwards of its parent before it. -/
theorem above_graft : (h.graft child parent).Above child (parent :: h.ancestorsOf parent) := by
  apply Above.step
  · rw [parentOf_graft, if_pos rfl]
  · exact (tree.grows_graft present absent).above tree present

theorem nodup_path_graft : (child :: parent :: h.ancestorsOf parent).Nodup :=
  List.nodup_cons.2 ⟨fun on_path => absent (tree.path_subset present on_path),
    tree.nodup_path parent present⟩

theorem ancestorsOf_graft :
    (h.graft child parent).ancestorsOf child = parent :: h.ancestorsOf parent := by
  apply (tree.above_graft present absent).ancestorsOf_eq (tree.nodup_path_graft present absent)
  apply List.cons_subset.2
  constructor
  · exact List.mem_append_right _ List.mem_cons_self
  · exact fun _ on_path => List.mem_append_left _ (tree.path_subset present on_path)

theorem count_childrenOf_graft (p n : Node ν) :
    ((h.graft child parent).childrenOf p).count n =
      if (h.graft child parent).parentOf n = some p then 1 else 0 := by
  have different : child ≠ parent := fun same => absent (same ▸ present)
  have orphan : h.parentOf child = none := tree.parentOf_eq_none absent
  rw [childrenOf_graft, parentOf_graft]
  by_cases new : n = child
  · subst new
    have nowhere (q : Node ν) : (h.childrenOf q).count n = 0 := by
      rw [tree.count_childrenOf, orphan]
      rfl
    by_cases at_parent : p = parent
    · subst at_parent
      simp [nowhere]
    · by_cases at_child : p = n
      · simp [at_child, different, Ne.symm different]
      · simp [at_parent, at_child, nowhere, Ne.symm at_parent]
  · by_cases at_parent : p = parent
    · subst at_parent
      simp [new, Ne.symm new, tree.count_childrenOf]
    · by_cases at_child : p = child
      · have childless : h.parentOf n ≠ some child := fun same => absent (tree.parentOf_mem same)
        simp [at_child, different, new, childless]
      · simp [at_parent, at_child, new, tree.count_childrenOf]

/-- A new node below a node that is there makes a tree of a tree. -/
theorem graft (not_null : child ≠ .null) : (h.graft child parent).IsTree := by
  have grows := tree.grows_graft present absent
  have ancestors_child := tree.ancestorsOf_graft present absent
  have ancestors_old {n : Node ν} (mem : n ∈ h.nodes) := grows.ancestorsOf_eq tree mem
  have cases_mem {n : Node ν} (mem : n ∈ (h.graft child parent).nodes) :
      n ∈ h.nodes ∨ n = child := by
    simpa [Hierarchy.graft] using mem
  constructor
  case nodup =>
    exact List.nodup_append.2 ⟨tree.nodup, List.nodup_singleton child, fun a a_mem b b_mem same =>
      absent (List.mem_singleton.1 b_mem ▸ same ▸ a_mem)⟩
  case root_mem => exact List.mem_append_left _ tree.root_mem
  case root_of_null_mem =>
    intro mem
    rcases cases_mem mem with old | new
    · exact tree.root_of_null_mem old
    · exact absurd new.symm not_null
  case keys_parents =>
    rw [Hierarchy.graft, Ledger.keys_put, tree.keys_parents, if_neg absent]
  case keys_children =>
    have parent_mem : parent ∈ h.nodes ++ [child] := List.mem_append_left _ present
    rw [Hierarchy.graft, Ledger.keys_put, Ledger.keys_put, tree.keys_children, if_neg absent,
      if_pos parent_mem]
  case parentOf_eq_none_iff =>
    intro n mem
    rw [parentOf_graft]
    rcases cases_mem mem with old | new
    · have not_new : n ≠ child := fun same => absent (same ▸ old)
      rw [if_neg not_new]
      exact tree.parentOf_eq_none_iff n old
    · rw [if_pos new]
      constructor
      · intro no_parent
        cases no_parent
      · intro is_root
        rw [← new, is_root] at absent
        exact absurd tree.root_mem absent
  case parentOf_mem =>
    intro n p found
    rw [parentOf_graft] at found
    split at found
    · cases found
      exact List.mem_append_left _ present
    · exact List.mem_append_left _ (tree.parentOf_mem found)
  case count_childrenOf => exact tree.count_childrenOf_graft present absent
  case above =>
    intro n mem
    rcases cases_mem mem with old | rfl
    · rw [ancestors_old old]
      exact grows.above tree old
    · rw [ancestors_child]
      exact tree.above_graft present absent
  case nodup_path =>
    intro n mem
    rcases cases_mem mem with old | rfl
    · rw [ancestors_old old]
      exact tree.nodup_path n old
    · rw [ancestors_child]
      exact tree.nodup_path_graft present absent
  case getLast_path =>
    intro n mem
    rcases cases_mem mem with old | rfl
    · simp only [ancestors_old old]
      exact tree.getLast_path n old
    · simp only [ancestors_child]
      rw [List.getLast_cons (List.cons_ne_nil _ _)]
      exact tree.getLast_path parent present

end IsTree

/-- A hierarchy that consists of a root is a tree. -/
theorem isTree_ofRoot (root : Node ν) : (ofRoot root : Hierarchy ν κ).IsTree := by
  have no_parent (n : Node ν) : (ofRoot root : Hierarchy ν κ).parentOf n = none := by
    rw [parentOf, ofRoot, Ledger.ofList, List.foldl_cons, List.foldl_nil, Ledger.get?_put]
    split <;> rfl
  have no_children (n : Node ν) : (ofRoot root : Hierarchy ν κ).childrenOf n = [] := by
    simp only [childrenOf, ofRoot, Ledger.ofList, List.foldl_cons, List.foldl_nil,
      Ledger.get?_put]
    split <;> rfl
  have no_ancestors (n : Node ν) : (ofRoot root : Hierarchy ν κ).ancestorsOf n = [] :=
    (Above.top (no_parent n)).climb_eq (Nat.zero_le _)
  have only_root {n : Node ν} (mem : n ∈ (ofRoot root : Hierarchy ν κ).nodes) : n = root :=
    List.mem_singleton.1 mem
  constructor
  case nodup => exact List.nodup_singleton root
  case root_mem => exact List.mem_singleton.2 rfl
  case root_of_null_mem => exact fun mem => (only_root mem).symm
  case keys_parents => rfl
  case keys_children => rfl
  case parentOf_eq_none_iff => exact fun n mem => ⟨fun _ => only_root mem, fun _ => no_parent n⟩
  case parentOf_mem =>
    intro n p found
    rw [no_parent] at found
    cases found
  case count_childrenOf =>
    intro p n
    rw [no_children, no_parent]
    rfl
  case above =>
    intro n mem
    rw [no_ancestors]
    exact .top (no_parent n)
  case nodup_path =>
    intro n mem
    rw [no_ancestors]
    exact List.nodup_singleton n
  case getLast_path =>
    intro n mem
    simp only [no_ancestors]
    exact only_root mem

end Hierarchy

end PointPattern
