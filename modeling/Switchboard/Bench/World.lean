import Switchboard.Bench.Script
import Switchboard.Context.Local
import Switchboard.Continuation
/-!
# The world of a bench

What the scripts of a bench share: one router with its table, local contexts, continuations,
outlets, and the inboxes of locations. A program of the bench has no answer if it names something
that is not there, or if it does not come to an end.
-/
namespace Switchboard.Bench

/-- A job of a local context. -/
inductive Job where
  | script (tag : String) (steps : List Step) (panics : Option Panic)
  /-- a message that goes into the inbox of a location -/
  | arrival (loc : Loc) (msg : Message)
  | resume (cell : Nat) (outcome : Outcome) (terminal : Bool)

/-- The behaviour of an endpoint. -/
inductive Endpoint where
  | queued (loc : Loc) (context : String)
  | direct (loc : Loc) (discard : Bool) (steps : List Step) (refuse : Option Fault)

/-- The handler of a continuation; none that does nothing. -/
abbrev Handler := Option HandlerScript

/-- A continuation, and whether it can be seen that its handler is dropped. -/
structure Cell where
  continuation : Continuation Handler
  observable : Bool

/-- Everything that the scripts of a bench share. Continuations are numbered, and a name stands
for the last one that got it. -/
structure World where
  router : Router Nat ExecutorName Endpoint
  contexts : List (String × LocalContext Job)
  cells : Array Cell := #[]
  names : List (String × Nat) := []
  outlets : List (String × Outlet ExecutorName) := []
  inboxes : List (Loc × List Message) := []
  events : List Event := []

/-- Programs over a world, which may have no answer. -/
abbrev Program := StateT World Option

namespace World

/-- A bench with open contexts, one for each name, and an empty table. -/
def ofContexts (shards : Nat) (contexts : List String) : World :=
  { router := { table := .ofShards shards }
    contexts := contexts.eraseDups.map fun name => (name, { name }) }

/-- The messages that a location has got. -/
def inbox (w : World) (loc : Loc) : List Message := (w.inboxes.lookup loc).getD []

/-- Puts a message into the inbox of a location. -/
def deposit (w : World) (loc : Loc) (msg : Message) : World :=
  { w with inboxes := (loc, w.inbox loc ++ [msg]) :: w.inboxes.filter (·.1 ≠ loc) }

/-- Replaces the context of a name. -/
def setContext (w : World) (name : String) (c : LocalContext Job) : World :=
  { w with contexts := w.contexts.map fun entry =>
      if entry.1 = name then (name, c) else entry }

/-- The result that a script means. -/
def result? (w : World) : ResultSpec → Option CmdResult
  | .given result => some result
  | .toInbox loc index reply =>
    let inbox := w.inbox loc
    match inbox[index.getD (inbox.length - 1)]? with
    | some (.cmd cmd) => some (reply.answering cmd)
    | _ => none

end World

namespace Program

/-- The router of the bench. -/
def router : Place Program (Router Nat ExecutorName Endpoint) :=
  .part World.router fun w r => { w with router := r }

/-- The context of a name. -/
def context (name : String) : Place Program (LocalContext Job) where
  step f := do
    let w ← get
    let c ← (w.contexts.lookup name : Option (LocalContext Job))
    let (a, c) := f c
    set (w.setContext name c)
    return a

/-- The continuation of a number. -/
def cell (i : Nat) : Place Program (Continuation Handler) where
  step f := do
    let w ← get
    let c ← (w.cells[i]? : Option Cell)
    let (a, continuation) := f c.continuation
    set { w with cells := w.cells.setIfInBounds i { c with continuation } }
    return a

/-- Shows an event. -/
def emit (event : Event) : Program Unit :=
  modify fun w => { w with events := w.events ++ [event] }

/-- Whether the dropping of a handler can be seen. -/
def isObservable (i : Nat) : Program Bool := do
  return ((← get).cells[i]?.map Cell.observable).getD false

/-- The number of the continuation of a name. -/
def cellOf (name : String) : Program Nat := do
  ((← get).names.lookup name : Option Nat)

/-- The outlet of a name. -/
def outletOf (name : String) : Program (Outlet ExecutorName) := do
  ((← get).outlets.lookup name : Option (Outlet ExecutorName))

/-- The result that a script means. -/
def resultOf (spec : ResultSpec) : Program CmdResult := do (← get).result? spec

/-- Makes a continuation and gives it a name. -/
def addCell (name : String) (handler : Handler) : Program Unit :=
  modify fun w =>
    { w with
      cells := w.cells.push { continuation := .ofHandler handler, observable := handler.isSome }
      names := (name, w.cells.size) :: w.names }

/-- What an executor answers to a job that it never takes. -/
def refusal : Except Fault Unit := .error (.dispatchFailure "refusing executor")

/-- Queues a delivery on its executor; one that is refused is lost. -/
def submit (d : Delivery Nat ExecutorName) : Program Unit :=
  match d.executor with
  | .refusing => pure ()
  | .context name => do
    let _ ← (context name).step (·.execute (.resume d.continuation d.outcome d.terminal))

end Program
end Switchboard.Bench
