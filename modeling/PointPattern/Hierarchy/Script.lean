/-
# Scripted callers

A script plays the caller of a session: it names nodes, callbacks and pipelines, and
it says what each callback does when it is called, once or every time. A name stands
for one object, and a study gives its label to the new solution. Actions of a
callback may name the nodes of the call that they react to. What the callbacks saw
is kept as a list of events.
-/

import PointPattern.Study.Request

namespace PointPattern

/-- The name of a node, or nothing for the absent node. -/
abbrev NodeName := Option String

/-- The object that a name stands for. A name that is given again stands for
another one. -/
structure Identity where
  name : String
  version : Nat
  deriving DecidableEq, Repr

/-- An action of a scripted caller. -/
inductive Action where
  /-- Fails with a text of its own. -/
  | raise (text : String)
  | attach (child parent : NodeName)
  | subscribe (callback : String) (node : NodeName)
  | unsubscribe (handle : Value)
  | parent (node : NodeName)
  | children (node : NodeName)
  | ancestors (node : NodeName)
  | traverse
  | size
  | root
  | contains (node : NodeName)
  /-- Whether two nodes count as equal although they may be different objects. -/
  | equal (left right : NodeName)
  | openPipeline (pipeline : String) (evaluators : List String)
  | run (pipeline : String)
  | update (pipeline : String) (result : NodeName)
  | close (pipeline : String)
  /-- Conducts a study and calls its solution by the label. -/
  | study (label : String) (request : Request) (parent : NodeName)

/-- What a callback does on its first call, and what it does on every call. -/
structure Reaction where
  once : List Action
  always : List Action

/-- What an action answers. -/
inductive Reply where
  | nothing
  | flag (b : Bool)
  | number (n : Nat)
  | node (n : NodeName)
  | nodes (ns : List NodeName)
  | solution (s : Solution Float) (warned : List String)
      (records : List (String × Datum Float))
  /-- A study that failed. -/
  | failure (e : Error)

/-- A call as a callback saw it: who was called, and the names of the two nodes. -/
structure Event where
  callee : String
  first : NodeName
  second : NodeName
  deriving DecidableEq, Repr

/-- A session with the names of a script: the objects and pipelines that names
stand for, the callbacks that have been called before, and the events, the newest
first. -/
structure Stage where
  session : Session Identity String
  objects : Ledger String Identity := {}
  pipelines : Ledger String Nat := {}
  called : List String := []
  events : List Event := []
  studies : Nat := 0

/-- What stays the same while a script is played. -/
structure Setting where
  host : Host Float
  library : Option Accelerators
  reactions : List (String × Reaction)

/-! ## Names -/

/-- The name of a node. -/
def Node.name : Node Identity → NodeName
  | .null => none
  | .object identity => some identity.name

/-- The part of a name up to the first tilde, by which nodes count as equal. -/
def equalityKey (name : String) : List Char := name.toList.takeWhile (· ≠ '~')

/-- Whether the nodes of two names count as equal. -/
def namesEqual : NodeName → NodeName → Bool
  | none, none => true
  | some a, some b => equalityKey a = equalityKey b
  | _, _ => false

/-- The name for which a placeholder stands in a reaction to a call. -/
def Call.placeholder (call : Call Identity String) (name : String) : Option NodeName :=
  let table := match call with
    | .notify _ child parent => [("$child", child.name), ("$parent", parent.name)]
    | .evaluate _ base result => [("$child", result.name), ("$base", base.name)]
  table.lookup name

/-- A name with placeholders replaced. -/
def Call.fill (call : Call Identity String) : NodeName → NodeName
  | none => none
  | some name => (call.placeholder name).getD (some name)

/-- An action with placeholders replaced. -/
def Action.fill (call : Call Identity String) : Action → Action
  | attach child above => attach (call.fill child) (call.fill above)
  | subscribe callback node => subscribe callback (call.fill node)
  | parent node => parent (call.fill node)
  | children node => children (call.fill node)
  | ancestors node => ancestors (call.fill node)
  | contains node => contains (call.fill node)
  | equal left right => equal (call.fill left) (call.fill right)
  | update pipeline result => update pipeline (call.fill result)
  | study label request above => study label request (call.fill above)
  | action => action

namespace Stage

/-- A stage with a root of the given name. -/
def ofRoot (root : NodeName) : Stage :=
  { session := .ofRoot (match root with
      | none => .null
      | some name => .object ⟨name, 0⟩) }

/-- The node of a name. -/
def node (stage : Stage) : NodeName → Node Identity
  | none => .null
  | some name => .object ((stage.objects.get? name).getD ⟨name, 0⟩)

/-- The pipeline of a name. -/
def pipeline (stage : Stage) (name : String) : Except Error Nat :=
  match stage.pipelines.get? name with
  | some number => .ok number
  | none => .error (.raised "KeyError" name)

/-- Notes a call. -/
def record (stage : Stage) (call : Call Identity String) : Stage :=
  let event : Event := match call with
    | .notify callback child parent => ⟨callback, child.name, parent.name⟩
    | .evaluate evaluator base result => ⟨evaluator, base.name, result.name⟩
  { stage with events := event :: stage.events }

/-- The actions by which a callee reacts to a call. The first call under a name is
special, whoever bears it. -/
def reactionTo (setting : Setting) (stage : Stage) (call : Call Identity String) :
    List Action × Stage :=
  let callee := match call with
    | .notify callback _ _ => callback
    | .evaluate evaluator _ _ => evaluator
  match setting.reactions.lookup callee with
  | none => ([], stage)
  | some reaction =>
    let first := !stage.called.contains callee
    let actions := (if first then reaction.once else []) ++ reaction.always
    (actions.map (·.fill call), { stage with called := callee :: stage.called })

/-- The command of an action that is one. -/
def command (stage : Stage) : Action → Except Error (Option (Command Identity String))
  | .attach child parent => .ok (some (.attach (stage.node child) (stage.node parent)))
  | .subscribe callback node => .ok (some (.subscribe callback (stage.node node)))
  | .unsubscribe handle => .ok (some (.unsubscribe handle))
  | .openPipeline _ evaluators => .ok (some (.openPipeline evaluators))
  | .run name => do return some (.run (← stage.pipeline name))
  | .update name result => do return some (.update (← stage.pipeline name) (stage.node result))
  | .close name => do return some (.close (← stage.pipeline name))
  | _ => .ok none

/-- The answer to a question about the hierarchy. -/
def answer (stage : Stage) : Action → Except Error Reply
  | .raise text => .error (.raised "RuntimeError" text)
  | .parent n => (stage.session.hierarchy.parent (stage.node n)).map fun parent =>
      .node (parent.bind Node.name)
  | .children n => (stage.session.hierarchy.children? (stage.node n)).map fun nodes =>
      .nodes (nodes.map Node.name)
  | .ancestors n => (stage.session.hierarchy.ancestors (stage.node n)).map fun nodes =>
      .nodes (nodes.map Node.name)
  | .traverse => .ok (.nodes (stage.session.hierarchy.preorder.map Node.name))
  | .size => .ok (.number stage.session.hierarchy.size)
  | .root => .ok (.node stage.session.hierarchy.root.name)
  | .contains n => .ok (.flag (stage.session.hierarchy.contains (stage.node n)))
  | .equal left right => .ok (.flag (namesEqual left right))
  | _ => .ok .nothing

/-- The failure of calls that are nested too deeply. -/
def tooDeep : Error := .raised "RecursionError" "maximum recursion depth exceeded"

mutual

/-- Follows a command to its end: every call on the way is answered by the reaction
of its callee. The first argument bounds the length of the way. -/
def settle (setting : Setting) :
    Nat → Stage → Signal Identity String → Except Error Reply × Stage
  | 0, stage, _ => (.error tooDeep, stage)
  | fuel + 1, stage, signal =>
    match signal with
    | .returned => (.ok .nothing, stage)
    | .subscribed handle => (.ok (.number handle), stage)
    | .opened number => (.ok (.number number), stage)
    | .raised e => (.error e, stage)
    | .called call =>
      let (actions, stage) := (stage.record call).reactionTo setting call
      let (result, stage) := performAll setting fuel stage actions
      let command : Command Identity String := match result with
        | .ok () => .finish
        | .error e => .fail e
      let (session, signal) := stage.session.act command
      settle setting fuel { stage with session } signal

/-- Performs actions one after the other, up to the first that fails. -/
def performAll (setting : Setting) :
    Nat → Stage → List Action → Except Error Unit × Stage
  | 0, stage, _ => (.error tooDeep, stage)
  | fuel + 1, stage, actions =>
    match actions with
    | [] => (.ok (), stage)
    | action :: rest =>
      match perform setting fuel stage action with
      | (.error e, stage) => (.error e, stage)
      | (.ok _, stage) => performAll setting fuel stage rest

/-- Performs an action. -/
def perform (setting : Setting) : Nat → Stage → Action → Except Error Reply × Stage
  | 0, stage, _ => (.error tooDeep, stage)
  | fuel + 1, stage, action =>
    match action with
    | .study label request parent =>
      let identity : Identity := ⟨label, stage.studies + 1⟩
      let named := { stage with
        studies := stage.studies + 1
        objects := stage.objects.put label identity }
      match request.conduct setting.host setting.library identity (stage.node parent)
          (some stage.session) with
      | .error e => (.ok (.failure e), stage)
      | .ok aftermath =>
        let session := aftermath.session.getD stage.session
        match aftermath.outcome with
        | .failed e => (.ok (.failure e), { stage with session })
        | .solved s => (.ok (.solution s aftermath.warned aftermath.records), stage)
        | .attached s signal =>
          match settle setting fuel { named with session } signal with
          | (.ok _, stage) => (.ok (.solution s aftermath.warned aftermath.records), stage)
          | (.error e, stage) => (.ok (.failure e), stage)
    | action =>
      match stage.command action with
      | .error e => (.error e, stage)
      | .ok none => (stage.answer action, stage)
      | .ok (some command) =>
        let (session, signal) := stage.session.act command
        let (result, stage) := settle setting fuel { stage with session } signal
        match action, result with
        | .openPipeline name _, .ok (.number number) =>
          (.ok .nothing, { stage with pipelines := stage.pipelines.put name number })
        | _, result => (result, stage)

end

/-- Performs a step of a script and gives the events of this step. -/
def step (setting : Setting) (stage : Stage) (action : Action) :
    Except Error Reply × List Event × Stage :=
  let (result, stage) := perform setting 100000 { stage with events := [] } action
  (result, stage.events.reverse, stage)

end Stage

end PointPattern
