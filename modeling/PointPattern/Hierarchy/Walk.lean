/-
# Walks through a hierarchy

A walk visits the nodes from the root downwards, each node before its children and
the children in order. It is taken step by step, and the hierarchy may grow between
the steps: the children of a node are looked up when the walk leaves the node.
-/

import PointPattern.Hierarchy

namespace PointPattern

/-- A walk: the node that it visited last, and the nodes that are still to come. -/
structure Walk (ν : Type) where
  last : Option (Node ν)
  ahead : List (Node ν)
  deriving DecidableEq, Repr

namespace Walk

variable {ν κ : Type}

/-- A walk that has not begun. -/
def start (h : Hierarchy ν κ) : Walk ν := ⟨none, [h.root]⟩

variable [DecidableEq ν]

/-- The nodes to come once the walk leaves the node that it visited last. -/
def onward (w : Walk ν) (h : Hierarchy ν κ) : List (Node ν) :=
  match w.last with
  | none => w.ahead
  | some n => h.childrenOf n ++ w.ahead

/-- The next node, if there is one. -/
def next (w : Walk ν) (h : Hierarchy ν κ) : Option (Node ν × Walk ν) :=
  match w.onward h with
  | [] => none
  | n :: rest => some (n, ⟨some n, rest⟩)

/-- So many more nodes of a walk while the hierarchy stays as it is. -/
def take (h : Hierarchy ν κ) : Nat → Walk ν → List (Node ν)
  | 0, _ => []
  | steps + 1, w => match w.next h with
    | none => []
    | some (n, w) => n :: take h steps w

end Walk

/-- All nodes, each before its children. -/
def Hierarchy.preorder {ν κ : Type} [DecidableEq ν] (h : Hierarchy ν κ) : List (Node ν) :=
  (Walk.start h).take h h.size

end PointPattern
