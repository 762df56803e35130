import Switchboard.Bench.World
/-!
# Running the scripts of a bench

Steps are performed one after the other. A step that runs other scripts, by pumping a context or
by handing a message to an endpoint, comes to an end before the next one begins. A panic unwinds
to the innermost pump, whose answer it becomes.
-/
namespace Switchboard.Bench

/-- How the script of an owner is run. -/
abbrev Runner := String → List Step → Program Unit

namespace Runner

/-- Calls the handler of a continuation. -/
def call (run : Runner) (handler : Handler) (n : Nat) (outcome : Outcome) :
    Program (Except Panic Unit) :=
  match handler with
  | none => return .ok ()
  | some script => do
    Program.emit (.outcome script.name n outcome)
    run script.name (script.stepsAt n)
    return script.endOf n

/-- Runs a job. -/
def job (run : Runner) : Job → Program (Except Panic Unit)
  | .script tag steps panics => do
    Program.emit (.job tag)
    run tag steps
    return match panics with
      | some panic => .error panic
      | none => .ok ()
  | .arrival loc msg => do
    modify (·.deposit loc msg)
    return .ok ()
  | .resume cell outcome terminal =>
    Continuation.resume (Program.cell cell) run.call outcome terminal

/-- Hands a message to an endpoint. -/
def forward (run : Runner) (endpoint : Endpoint) (msg : Message) :
    Program (Except Fault Unit) :=
  match endpoint with
  | .queued loc context => (Program.context context).step (·.execute (.arrival loc msg))
  | .direct loc discard steps refuse => do
    if !discard then modify (·.deposit loc msg)
    run "deliver" steps
    return match refuse with
      | some fault => .error fault
      | none => .ok ()

/-- The router, the executors and the endpoints of the bench. -/
def fabric (run : Runner) : Fabric Program Nat ExecutorName Endpoint where
  router := Program.router
  submit := Program.submit
  forward := run.forward

/-- Performs one step. -/
def perform (run : Runner) : Step → Program Answer
  | .execute context tag steps panics =>
    return .done (← (Program.context context).step (·.execute (.script tag steps panics)))
  | .pump context max =>
    return .pumped (← LocalContext.pump (Program.context context) run.job max)
  | .closeContext context => do
    (Program.context context).modify .close
    return .done (.ok ())
  | .context context => do
    let c ← (Program.context context).get
    return .context c.name c.queue.length c.current
  | .cont name on panicOn => do
    Program.addCell name (some { name, on, panicOn })
    return .done (.ok ())
  | .noopCont name => do
    Program.addCell name none
    return .done (.ok ())
  | .contState name => do
    let i ← Program.cellOf name
    let c ← (Program.cell i).get
    let released := if ← Program.isObservable i then some c.isReleased else none
    return .cont c.finished c.deliveries.toNat released
  | .nextId => do
    let id ← Program.router.step fun r =>
      let (id, table) := r.table.allocate
      (id, { r with table })
    return .id id
  | .register id cont streaming executor => do
    let continuation ← Program.cellOf cont
    let answer ← Program.router.step fun r =>
      let (answer, table) := r.table.register id { continuation, executor, streaming }
      (answer, { r with table })
    return .done answer
  | .complete id result => do
    let result ← Program.resultOf result
    return .flag (← run.fabric.complete id result)
  | .fail id fault => return .flag (← run.fabric.fail id fault)
  | .cancelAll reason => return .count (← run.fabric.cancelAll reason)
  | .contains id => return .flag ((← Program.router.get).table.contains id)
  | .table => do
    let table := (← Program.router.get).table
    return .table table.size table.closed table.stats
  | .refusing => return .refusing "refusing" false Program.refusal
  | .routeQueued loc context =>
    return .done (← Program.router.step (·.addRoute loc (.queued loc context)))
  | .routeDirect loc discard steps refuse =>
    return .done (← Program.router.step (·.addRoute loc (.direct loc discard steps refuse)))
  | .hasRoute loc => return .flag ((← Program.router.get).hasRoute loc)
  | .isClosed => return .flag (← Program.router.get).closed
  | .close => do
    Program.router.modify .close
    return .flag (← Program.router.get).closed
  | .clearRoutes => do
    Program.router.modify .clearRoutes
    return .flag (← Program.router.get).closed
  | .outlet name src defaultDest executor => do
    modify fun w => { w with outlets := (name, { src, defaultDest, executor }) :: w.outlets }
    return .outlet src true
  | .sendCmd outlet cmd cont streaming => do
    let outlet ← Program.outletOf outlet
    let continuation ← Program.cellOf cont
    return .sent (← outlet.sendCmd run.fabric cmd continuation streaming)
  | .send outlet msg => do
    let outlet ← Program.outletOf outlet
    return .done (← outlet.send run.fabric msg)
  | .returnResult outlet result => do
    let _ ← Program.outletOf outlet
    let result ← Program.resultOf result
    return .done (← run.fabric.returnResult result)
  | .inbox loc start => return .inbox (((← get).inbox loc).drop start)

end Runner

/-- Runs the script of an owner; scripts may run within scripts only so deep. Each step is shown
with its answer after it was performed. -/
def runScript : (depth : Nat) → Runner
  | _, _, [] => return ()
  | 0, _, _ :: _ => failure
  | depth + 1, owner, steps => steps.forM fun step => do
    let answer ← Runner.perform (runScript depth) step
    Program.emit (.step owner step answer)

/-- How deep scripts may run within scripts. -/
def depthLimit : Nat := 10000

/-- Performs a step from outside. -/
def perform (step : Step) : Program Answer := Runner.perform (runScript depthLimit) step

/-- Performs a step and takes the events that it has left. -/
def observe (step : Step) : Program (Answer × List Event) := do
  let answer ← perform step
  let events := (← get).events
  modify fun w => { w with events := [] }
  return (answer, events)

end Switchboard.Bench
