/-
# Hierarchies of results

A hierarchy is a tree of results, told apart by their identity. Listeners subscribe
to a node and are meant for everything that is attached below it. A subscription is
known by its handle, and handles are never used twice. The absent node is no result:
as an argument it stands for the root, and no check ever misses it, so it cannot be
attached.
-/

import PointPattern.Error
import PointPattern.Ledger

namespace PointPattern

/-- A result with an identity, or the absent node. -/
inductive Node (ν : Type) where
  | null
  | object (identity : ν)
  deriving DecidableEq, Repr

/-- A listener at a node, with the handle that cancels it. -/
structure Subscription (κ : Type) where
  handle : Nat
  listener : κ
  deriving DecidableEq, Repr

/-- A tree of results with the listeners at its nodes, in order of subscription. -/
structure Hierarchy (ν κ : Type) where
  root : Node ν
  /-- All nodes in the order in which they came. -/
  nodes : List (Node ν)
  parents : Ledger (Node ν) (Option (Node ν))
  children : Ledger (Node ν) (List (Node ν))
  listeners : Ledger (Node ν) (List (Subscription κ))
  /-- The node of each live subscription. -/
  owners : Ledger Nat (Node ν)
  nextHandle : Nat

namespace Hierarchy

variable {ν κ : Type}

/-- The number of nodes. -/
def size (h : Hierarchy ν κ) : Nat := h.nodes.length

variable [DecidableEq ν]

/-- The hierarchy that consists of a root. -/
def ofRoot (root : Node ν) : Hierarchy ν κ where
  root
  nodes := [root]
  parents := .ofList [(root, none)]
  children := .ofList [(root, [])]
  listeners := {}
  owners := {}
  nextHandle := 1

/-! ## Looking around -/

/-- Whether a node is in the hierarchy. The absent node is never missed. -/
def contains (h : Hierarchy ν κ) (n : Node ν) : Bool := n = .null || h.nodes.contains n

/-- The root in the place of the absent node. -/
def orRoot (h : Hierarchy ν κ) (n : Node ν) : Node ν := if n = .null then h.root else n

/-- Refuses a node that is not in the hierarchy, under the name of its role. -/
def find (h : Hierarchy ν κ) (n : Node ν) (role : String) : Except Error (Node ν) :=
  if h.contains n then .ok n else .error (.invalid (.nodeAbsent role))

/-- The parent of a node, if it has one. -/
def parentOf (h : Hierarchy ν κ) (n : Node ν) : Option (Node ν) := (h.parents.get? n).join

/-- The children of a node in the order in which they were attached. -/
def childrenOf (h : Hierarchy ν κ) (n : Node ν) : List (Node ν) := (h.children.get? n).getD []

/-- The subscriptions at a node. -/
def listenersAt (h : Hierarchy ν κ) (n : Node ν) : List (Subscription κ) :=
  (h.listeners.get? n).getD []

/-- So many steps towards the root. -/
def climb (h : Hierarchy ν κ) : Nat → Node ν → List (Node ν)
  | 0, _ => []
  | steps + 1, n => match h.parentOf n with
    | none => []
    | some parent => parent :: h.climb steps parent

/-- The nodes above a node, from its parent up to the root. There are fewer of them
than nodes. -/
def ancestorsOf (h : Hierarchy ν κ) (n : Node ν) : List (Node ν) := h.climb h.size n

/-- The parent of a node of the hierarchy; the root has none. -/
def parent (h : Hierarchy ν κ) (n : Node ν) : Except Error (Option (Node ν)) :=
  (h.find n "node").map h.parentOf

/-- The children of a node of the hierarchy. -/
def children? (h : Hierarchy ν κ) (n : Node ν) : Except Error (List (Node ν)) :=
  (h.find n "node").map h.childrenOf

/-- The nodes above a node of the hierarchy. -/
def ancestors (h : Hierarchy ν κ) (n : Node ν) : Except Error (List (Node ν)) :=
  (h.find n "node").map h.ancestorsOf

/-! ## Attaching -/

/-- Adds a node below another one, without any check. -/
def graft (h : Hierarchy ν κ) (child parent : Node ν) : Hierarchy ν κ :=
  { h with
    nodes := h.nodes ++ [child]
    parents := h.parents.put child (some parent)
    children :=
      (h.children.put child []).put parent (h.childrenOf parent ++ [child]) }

/-- Attaches a new node below a node of the hierarchy, by default below the root.
The parent is checked first; it is part of the answer. -/
def attach (h : Hierarchy ν κ) (child parent : Node ν) :
    Except Error (Node ν × Hierarchy ν κ) := do
  let parent ← h.find (h.orRoot parent) "parent"
  if h.contains child then throw (.invalid .childPresent)
  return (parent, h.graft child parent)

/-! ## Subscribing -/

/-- Subscribes a listener at a node, by default at the root. -/
def subscribe (h : Hierarchy ν κ) (listener : κ) (n : Node ν) :
    Except Error (Nat × Hierarchy ν κ) := do
  let n ← h.find (h.orRoot n) "node"
  let handle := h.nextHandle
  return (handle,
    { h with
      listeners := h.listeners.put n (h.listenersAt n ++ [⟨handle, listener⟩])
      owners := h.owners.put handle n
      nextHandle := handle + 1 })

/-- Cancels the subscription with a handle, if it is live. -/
def cancel? (h : Hierarchy ν κ) (handle : Nat) : Option (Hierarchy ν κ) :=
  match h.owners.get? handle with
  | none => none
  | some owner =>
    some
      { h with
        owners := h.owners.erase handle
        listeners :=
          h.listeners.put owner ((h.listenersAt owner).filter (·.handle ≠ handle)) }

/-- The handle that a value denotes: any number that equals it. -/
def handleOf : Value → Except Error (Option Nat)
  | .bool b => .ok (some b.toNat)
  | .int i => .ok (if 0 ≤ i then some i.toNat else none)
  | .real x => .ok ((Number.truncate? x).bind fun i =>
      if 0 ≤ i && x == Float.ofInt i then some i.toNat else none)
  | .sized _ v => handleOf v
  | .list _ => .error (.raised "TypeError" "unhashable type: 'list'")
  | .record _ => .error (.raised "TypeError" "unhashable type: 'dict'")
  | _ => .ok none

/-- Cancels the subscription whose handle a value denotes. -/
def unsubscribe (h : Hierarchy ν κ) (handle : Value) : Except Error (Hierarchy ν κ) := do
  let number ← handleOf handle
  match number.bind h.cancel? with
  | some h => return h
  | none => throw (.invalid (.unknownSubscription handle))

end Hierarchy

end PointPattern
