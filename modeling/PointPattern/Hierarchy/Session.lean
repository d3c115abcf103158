/-
# Notification on attachment

Attaching a node notifies the listeners at its parent and at every node above, from
the nearest upwards and in the order of subscription; a listener that has been
notified of the node once is passed over. A listener is a callback, or a pipeline,
which applies each of its evaluators to the root and the new node.

Callbacks and evaluators belong to the caller and may do anything that the caller
may do, also attach, subscribe and cancel while they are running. A session
therefore stops at each call: it answers a command with the call that is to be made,
and goes on when it is told how the call ended. The deliveries that are under way
form a stack, and every command is given by the call on top of it. The listeners at
a node are those that are subscribed when the delivery reaches the node.
-/

import PointPattern.Hierarchy.Walk

namespace PointPattern

/-- Who is notified: a callback, known by its identity, or a pipeline. -/
inductive Listener (κ : Type) where
  | callback (identity : κ)
  | pipeline (number : Nat)
  deriving DecidableEq, Repr

/-- A call of code that belongs to the caller. -/
inductive Call (ν κ : Type) where
  | notify (callback : κ) (child parent : Node ν)
  | evaluate (evaluator : κ) (base result : Node ν)
  deriving DecidableEq, Repr

/-- Evaluators that are applied to every new result, with the handle of the
subscription while the pipeline is open. -/
structure Pipeline (κ : Type) where
  evaluators : List κ
  handle : Option Nat
  deriving DecidableEq, Repr

/-- A delivery under way: the calls that the current listener still has to make,
the subscriptions that are left at the current node, the nodes above, and the
listeners that were notified. -/
structure Delivery (ν κ : Type) where
  child : Node ν
  parent : Node ν
  calls : List (Call ν κ) := []
  queue : List (Subscription (Listener κ)) := []
  path : List (Node ν) := []
  seen : List (Listener κ) := []

/-- A hierarchy with its pipelines and the deliveries under way, the newest
first. -/
structure Session (ν κ : Type) where
  hierarchy : Hierarchy ν (Listener κ)
  pipelines : List (Pipeline κ) := []
  pending : List (Delivery ν κ) := []

/-- What a caller may ask of a session. The last two commands end the call that is
being made. -/
inductive Command (ν κ : Type) where
  | attach (child parent : Node ν)
  | subscribe (callback : κ) (node : Node ν)
  | unsubscribe (handle : Value)
  | openPipeline (evaluators : List κ)
  /-- Applies a pipeline to the root. -/
  | run (pipeline : Nat)
  /-- Applies a pipeline to a result. -/
  | update (pipeline : Nat) (result : Node ν)
  | close (pipeline : Nat)
  | finish
  | fail (e : Error)

/-- What a command brings about: a call that has to be made before the command is
through, or the end of the command that the caller gave last. -/
inductive Signal (ν κ : Type) where
  | called (c : Call ν κ)
  | returned
  /-- A subscription was made, and this is its handle. -/
  | subscribed (handle : Nat)
  | opened (pipeline : Nat)
  | raised (e : Error)

/-! ## The next call of a delivery -/

section Next

variable {ν κ : Type} [DecidableEq κ]

/-- The first call that a queue of subscriptions leads to, the further calls of the
same listener, the rest of the queue, and the listeners that are done with. -/
def nextInQueue (callsOf : Listener κ → List (Call ν κ)) :
    List (Listener κ) → List (Subscription (Listener κ)) →
      Option (Call ν κ × List (Call ν κ) × List (Subscription (Listener κ))) × List (Listener κ)
  | seen, [] => (none, seen)
  | seen, s :: rest =>
    if s.listener ∈ seen then nextInQueue callsOf seen rest
    else match callsOf s.listener with
      | [] => nextInQueue callsOf (s.listener :: seen) rest
      | call :: calls => (some (call, calls, rest), s.listener :: seen)

/-- The first call on the way upwards, and the delivery that goes on after it. -/
def Delivery.climb (callsOf : Listener κ → List (Call ν κ))
    (listenersAt : Node ν → List (Subscription (Listener κ))) (d : Delivery ν κ) :
    List (Listener κ) → List (Node ν) → Option (Call ν κ × Delivery ν κ)
  | _, [] => none
  | seen, n :: path =>
    match nextInQueue callsOf seen (listenersAt n) with
    | (some (call, calls, queue), seen) => some (call, { d with calls, queue, path, seen })
    | (none, seen) => d.climb callsOf listenersAt seen path

/-- The next call of a delivery, and the delivery that goes on after it. -/
def Delivery.next (callsOf : Listener κ → List (Call ν κ))
    (listenersAt : Node ν → List (Subscription (Listener κ))) (d : Delivery ν κ) :
    Option (Call ν κ × Delivery ν κ) :=
  match d.calls with
  | call :: calls => some (call, { d with calls })
  | [] =>
    match nextInQueue callsOf d.seen d.queue with
    | (some (call, calls, queue), seen) => some (call, { d with calls, queue, seen })
    | (none, seen) => d.climb callsOf listenersAt seen d.path

end Next

/-! ## Sessions -/

namespace Session

variable {ν κ : Type} [DecidableEq ν]

/-- A session with a hierarchy that consists of a root. -/
def ofRoot (root : Node ν) : Session ν κ := { hierarchy := .ofRoot root }

/-- The calls that apply a pipeline to a result. -/
def evaluations (s : Session ν κ) (pipeline : Nat) (result : Node ν) : List (Call ν κ) :=
  match s.pipelines[pipeline]? with
  | none => []
  | some p => p.evaluators.map fun evaluator => .evaluate evaluator s.hierarchy.root result

/-- The calls by which a listener is notified. -/
def callsOf (s : Session ν κ) (child parent : Node ν) : Listener κ → List (Call ν κ)
  | .callback callback => [.notify callback child parent]
  | .pipeline number => s.evaluations number child

variable [DecidableEq κ]

/-- Goes on with the newest delivery: its next call is to be made, or the delivery
is over. -/
def proceed (s : Session ν κ) : Session ν κ × Signal ν κ :=
  match s.pending with
  | [] => (s, .returned)
  | d :: rest =>
    match d.next (s.callsOf d.child d.parent) s.hierarchy.listenersAt with
    | some (call, d) => ({ s with pending := d :: rest }, .called call)
    | none => ({ s with pending := rest }, .returned)

/-- Begins a delivery. -/
def deliver (s : Session ν κ) (d : Delivery ν κ) : Session ν κ × Signal ν κ :=
  proceed { s with pending := d :: s.pending }

/-- The delivery of a node that was attached: it climbs from the parent to the
root. -/
def notice (h : Hierarchy ν (Listener κ)) (child parent : Node ν) : Delivery ν κ :=
  { child, parent, path := parent :: h.ancestorsOf parent }

/-- Attaches a node and notifies. -/
def attach (s : Session ν κ) (child parent : Node ν) : Session ν κ × Signal ν κ :=
  match s.hierarchy.attach child parent with
  | .error e => (s, .raised e)
  | .ok (parent, hierarchy) =>
    deliver { s with hierarchy } (notice hierarchy child parent)

/-- Subscribes a callback. -/
def subscribe (s : Session ν κ) (callback : κ) (node : Node ν) : Session ν κ × Signal ν κ :=
  match s.hierarchy.subscribe (.callback callback) node with
  | .error e => (s, .raised e)
  | .ok (handle, hierarchy) => ({ s with hierarchy }, .subscribed handle)

/-- Cancels a subscription. -/
def unsubscribe (s : Session ν κ) (handle : Value) : Session ν κ × Signal ν κ :=
  match s.hierarchy.unsubscribe handle with
  | .error e => (s, .raised e)
  | .ok hierarchy => ({ s with hierarchy }, .returned)

/-- Opens a pipeline, which listens at the root. -/
def openPipeline (s : Session ν κ) (evaluators : List κ) : Session ν κ × Signal ν κ :=
  let number := s.pipelines.length
  match s.hierarchy.subscribe (.pipeline number) .null with
  | .error e => (s, .raised e)
  | .ok (handle, hierarchy) =>
    ({ s with hierarchy, pipelines := s.pipelines ++ [⟨evaluators, some handle⟩] },
      .opened number)

/-- Applies a pipeline to a result. -/
def update (s : Session ν κ) (pipeline : Nat) (result : Node ν) : Session ν κ × Signal ν κ :=
  deliver s
    { child := result, parent := s.hierarchy.root, calls := s.evaluations pipeline result }

/-- Closes a pipeline. Closing it again has no effect. -/
def close (s : Session ν κ) (pipeline : Nat) : Session ν κ × Signal ν κ :=
  match s.pipelines[pipeline]? with
  | some { evaluators, handle := some handle } =>
    match s.hierarchy.unsubscribe (.int handle) with
    | .error e => (s, .raised e)
    | .ok hierarchy =>
      ({ s with hierarchy, pipelines := s.pipelines.set pipeline ⟨evaluators, none⟩ }, .returned)
  | _ => (s, .returned)

/-- Carries out a command. A call that fails ends the delivery that made it, and the
failure goes to the command that began the delivery. -/
def act (s : Session ν κ) : Command ν κ → Session ν κ × Signal ν κ
  | .attach child parent => s.attach child parent
  | .subscribe callback node => s.subscribe callback node
  | .unsubscribe handle => s.unsubscribe handle
  | .openPipeline evaluators => s.openPipeline evaluators
  | .run pipeline => s.update pipeline s.hierarchy.root
  | .update pipeline result => s.update pipeline result
  | .close pipeline => s.close pipeline
  | .finish => s.proceed
  | .fail e => ({ s with pending := s.pending.drop 1 }, .raised e)

end Session

end PointPattern
