import Switchboard.App.Script
import Switchboard.Config
import Switchboard.Context.Worker
import Switchboard.Continuation
import Switchboard.Json
import Switchboard.Lifecycle
import Switchboard.Permit
import Switchboard.Router
/-!
# The state of an application

An application joins two workers by a router. The tester's worker runs the callbacks and handlers
of the tester, the engine those of the extension under test. Continuations are numbered; so are
the boundaries to foreign hosts and the promises behind futures.
-/
namespace Switchboard.App

/-- The handler of a command. -/
inductive Handler where
  /-- shows the outcome, acts, and panics at some calls -/
  | scripted (side : Side) (tag : String) (followUp : List Action) (panicOn : List Nat)
      (current : Option Cmd)
  /-- keeps a promise -/
  | promise (index : Nat)
  /-- hands the outcome to a foreign host -/
  | foreign (boundary : Nat) (callback : Option (Handle × Callback))
  /-- a handler of the extension that shows nothing -/
  | silent

/-- The side that sent the command. -/
def Handler.side : Handler → Side
  | .scripted side .. => side
  | .promise _ | .foreign .. => .tester
  | .silent => .engine

/-- What is run when a message of the tester was handed over. -/
inductive Completion where
  | scripted (ack : Ack)
  | promise (index : Nat)
  | foreign (boundary : Nat) (handle : Handle) (callback : Callback)

/-- The callbacks of a tester that belong to phases. -/
inductive PhaseCallback where
  | start
  | stop
  | deinit
deriving DecidableEq

/-- What a tester is scripted to do in a phase, if anything. -/
def PhaseCallback.actions? (script : TesterScript) : PhaseCallback → Option (List Action)
  | start => script.onStart
  | stop => script.onStop
  | deinit => script.onDeinit

/-- The acknowledgement that ends a phase. -/
def PhaseCallback.acknowledge : PhaseCallback → Lifecycle → Except Fault Unit × Lifecycle
  | start => Lifecycle.startDone
  | stop => Lifecycle.stopDone
  | deinit => Lifecycle.deinitDone

/-- A job of one of the workers. -/
inductive Job where
  | resume (cell : Nat) (outcome : Outcome) (terminal : Bool)
  | arrival (msg : Message)
  | initExtension (properties : Json)
  | startExtension
  | phase (callback : PhaseCallback)
  | completion (completion : Completion)

/-- What a tester has sent and observed. -/
structure Counters where
  cmdsSent : Nat := 0
  results : Nat := 0
  intermediate : Nat := 0
  failed : Nat := 0
  cancelled : Nat := 0
  oneWaySent : Nat := 0
  resultsReturned : Nat := 0
deriving DecidableEq

/-- Counts an outcome that reaches a handler. -/
def Counters.observe (c : Counters) : Outcome → Counters
  | .ok result =>
    if result.isFinal then { c with results := c.results + 1 }
    else { c with intermediate := c.intermediate + 1 }
  | .error fault =>
    if fault.isCancelled then { c with cancelled := c.cancelled + 1 }
    else { c with failed := c.failed + 1 }

/-- The counters with the size of the pool and the most that was ever in use of it. -/
structure EnvStats where
  counters : Counters
  poolCapacity : Nat
  poolPeak : Nat
deriving DecidableEq

/-- What a promise holds. -/
inductive Promise where
  | pending
  | outcome (outcome : Outcome)
  | sent
  /-- whoever should have kept it is gone -/
  | lost

/-- A send that somebody may wait for. -/
inductive FutureSend where
  | cmd (sent : Except Fault Nat)
  | data (sent : Except Fault Nat)

/-- Messages and callbacks on a boundary to a foreign host. -/
structure Boundary where
  messages : HandleRegistry Message := .empty
  callbacks : HandleRegistry Callback := .empty

/-- What an action or a step answers. -/
inductive Answer where
  | done (result : Except Fault Unit)
  | noCommand
  | sent (result : Except Fault RequestId)
  | phase (phase : Phase)
  | flag (value : Bool)
  | count (n : Nat)
  | stats (stats : EnvStats)
  | tableStats (stats : TableStats)
  | name (name : String)
  | status (status : Status)
  | handle (handle : Handle)
  | taken (msg : Option Message)
  | live (messages callbacks : Nat)
  | outcome (outcome : Outcome)
  | readySend (result : Except Fault Unit)
  | notReady
  | noFuture
  | panicked (panic : Panic)

/-- What a run shows on each of its sides. -/
inductive Event where
  | action (action : Action) (answer : Answer)
  | outcome (tag : String) (call : Nat) (outcome : Outcome)
  | ack (tag : String)
  | initExtension (name : String) (properties : Json)
  | startExtension
  | message (msg : Message)
  | phase (callback : PhaseCallback) (phase : Phase)
  | callback (tag : String) (status : Status) (result : Option Handle)

end App

/-- An application. It remembers the continuations of all commands whose send succeeded, oldest
first. -/
structure App where
  config : Config
  name : String
  extension : App.Extension
  /-- the greeting of an extension that answers pings -/
  greeting : Option String := none
  tester : Option App.TesterScript := none
  router : Router Nat App.Side App.Side
  testerWorker : Worker App.Job
  engineWorker : Worker App.Job
  lifecycle : Lifecycle := {}
  pool : PermitPool
  counters : App.Counters := {}
  cells : Array (Continuation App.Handler) := #[]
  sent : List Nat := []
  held : List (String × Cmd) := []
  boundaries : Array App.Boundary := #[]
  boundary : Option Nat := none
  promises : Array App.Promise := #[]
  futures : List (String × App.FutureSend) := []
  testerEvents : List App.Event := []
  engineEvents : List App.Event := []
  records : List LogRecord := []
  dropped : Bool := false

namespace App

/-- The location of the extension under test. -/
def extensionLoc (a : App) : Loc := .extension a.name

/-- The outlet through which a side sends. -/
def outlet (a : App) : Side → Outlet Side
  | .tester => { src := .tester, defaultDest := a.extensionLoc, executor := .tester }
  | .engine => { src := a.extensionLoc, defaultDest := .tester, executor := .engine }

/-- The worker of a side. -/
def worker (a : App) : Side → Worker Job
  | .tester => a.testerWorker
  | .engine => a.engineWorker

/-- Replaces the worker of a side. -/
def setWorker (a : App) (side : Side) (w : Worker Job) : App :=
  match side with
  | .tester => { a with testerWorker := w }
  | .engine => { a with engineWorker := w }

/-- Shows an event on a side. -/
def addEvent (a : App) (side : Side) (event : Event) : App :=
  match side with
  | .tester => { a with testerEvents := a.testerEvents ++ [event] }
  | .engine => { a with engineEvents := a.engineEvents ++ [event] }

/-- What the tester has sent and observed so far. -/
def stats (a : App) : EnvStats :=
  { counters := a.counters, poolCapacity := a.pool.capacity, poolPeak := a.pool.peak }

/-- Programs over an application. -/
abbrev Program := StateM App

namespace Program

/-- The router. -/
def router : Place Program (Router Nat Side Side) :=
  .part App.router fun a r => { a with router := r }

/-- The worker of a side. -/
def worker (side : Side) : Place Program (Worker Job) :=
  .part (App.worker · side) fun a w => a.setWorker side w

/-- The lifecycle. -/
def lifecycle : Place Program Lifecycle :=
  .part App.lifecycle fun a l => { a with lifecycle := l }

/-- The pool of permits. -/
def pool : Place Program PermitPool := .part App.pool fun a p => { a with pool := p }

/-- The continuation of a number; one that does not exist has been released. -/
def cell (i : Nat) : Place Program (Continuation Handler) :=
  .part (fun (a : App) => a.cells.getD i { slot := .released })
    fun a c => { a with cells := a.cells.setIfInBounds i c }

/-- The boundary of a number. -/
def boundary (i : Nat) : Place Program Boundary :=
  .part (fun (a : App) => a.boundaries.getD i {})
    fun a b => { a with boundaries := a.boundaries.setIfInBounds i b }

/-- Shows an event on a side. -/
def emit (side : Side) (event : Event) : Program Unit := modify (·.addEvent side event)

/-- Changes the counters of the tester. -/
def count (f : Counters → Counters) : Program Unit :=
  modify fun a => { a with counters := f a.counters }

/-- Makes a promise. -/
def newPromise : Program Nat :=
  modifyGet fun a => (a.promises.size, { a with promises := a.promises.push .pending })

/-- Settles a promise. -/
def settlePromise (i : Nat) (p : Promise) : Program Unit :=
  modify fun a => { a with promises := a.promises.setIfInBounds i p }

end Program
end App
end Switchboard
