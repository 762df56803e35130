import Switchboard.Router
/-!
# Scripts of a bench

A bench is a router with local contexts that one program drives. Its programs are scripts: lists
of steps. A step may leave another script behind, as a job, as the handler of a continuation or
as the behaviour of an endpoint, and such a script runs later, in the middle of other steps.
-/
namespace Switchboard.Bench

/-- An executor by its name. -/
inductive ExecutorName where
  | context (name : String)
  /-- one that takes no job -/
  | refusing
deriving DecidableEq

/-- A result in a script. -/
inductive ResultSpec where
  | given (result : CmdResult)
  /-- the answer to a command in the inbox of a location, the last one unless an index is given -/
  | toInbox (loc : Loc) (index : Option Nat) (reply : Reply)

/-- A step of a script. -/
inductive Step where
  | execute (context tag : String) (steps : List Step) (panics : Option Panic)
  | pump (context : String) (max : Nat)
  | closeContext (context : String)
  | context (context : String)
  | cont (name : String) (on : List (Nat × List Step)) (panicOn : List Nat)
  | noopCont (name : String)
  | contState (name : String)
  | nextId
  | register (id : RequestId) (cont : String) (streaming : Bool) (executor : ExecutorName)
  | complete (id : RequestId) (result : ResultSpec)
  | fail (id : RequestId) (fault : Fault)
  | cancelAll (reason : String)
  | contains (id : RequestId)
  | table
  | refusing
  /-- an endpoint that queues messages for its inbox on a context -/
  | routeQueued (loc : Loc) (context : String)
  /-- an endpoint that takes messages at once, runs steps and may then refuse -/
  | routeDirect (loc : Loc) (discard : Bool) (steps : List Step) (refuse : Option Fault)
  | hasRoute (loc : Loc)
  | isClosed
  | close
  | clearRoutes
  | outlet (name : String) (src defaultDest : Loc) (executor : ExecutorName)
  | sendCmd (outlet : String) (cmd : Cmd) (cont : String) (streaming : Bool)
  | send (outlet : String) (msg : Message)
  | returnResult (outlet : String) (result : ResultSpec)
  | inbox (loc : Loc) (start : Nat)
deriving Inhabited

/-- The handler of a continuation: what it does at each call, and at which calls it panics. -/
structure HandlerScript where
  name : String
  on : List (Nat × List Step)
  panicOn : List Nat

namespace HandlerScript

/-- The steps of one call. -/
def stepsAt (h : HandlerScript) (call : Nat) : List Step := (h.on.lookup call).getD []

/-- How one call ends. -/
def endOf (h : HandlerScript) (call : Nat) : Except Panic Unit :=
  if call ∈ h.panicOn then .error ⟨h.name ++ " panics on call " ++ toString call⟩ else .ok ()

end HandlerScript

/-- What a step answers. -/
inductive Answer where
  | done (result : Except Fault Unit)
  | flag (value : Bool)
  | count (n : Nat)
  | pumped (ran : Except Panic Nat)
  | id (id : RequestId)
  | sent (result : Except Fault RequestId)
  | context (name : String) (pending : Nat) (current : Bool)
  /-- whether the handler was dropped is not told of a handler that does nothing -/
  | cont (finished : Bool) (deliveries : Nat) (released : Option Bool)
  | table (size : Nat) (closed : Bool) (stats : TableStats)
  | refusing (name : String) (current : Bool) (execute : Except Fault Unit)
  | outlet (src : Loc) (sameRouter : Bool)
  | inbox (messages : List Message)

/-- What a run of steps shows beside their answers. -/
inductive Event where
  | job (tag : String)
  | outcome (cont : String) (call : Nat) (outcome : Outcome)
  /-- a step that was run by the script of `owner`, and its answer -/
  | step (owner : String) (step : Step) (answer : Answer)

end Switchboard.Bench
