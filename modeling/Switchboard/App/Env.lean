import Switchboard.App.State
/-!
# What the two sides can do

Both sides send through the router; the tester besides holds a permit of the pool during each
call, counts what it sent, and drives the lifecycle. None of these operations waits for a job.
-/
namespace Switchboard.App

namespace Program

/-- Hands a delivery to the worker of its side. One that is refused is lost, and with it the
promise that its handler should have kept. -/
def submit (d : Delivery Nat Side) : Program Unit := do
  match ← (worker d.executor).step (·.execute (.resume d.continuation d.outcome d.terminal)) with
  | .ok () => return ()
  | .error _ =>
    match (← (cell d.continuation).get).slot with
    | .waiting (.promise i) => settlePromise i .lost
    | _ => return ()

/-- Hands a message to the worker of a side; results go another way. -/
def forward (side : Side) (msg : Message) : Program (Except Fault Unit) :=
  match msg with
  | .cmdResult _ => return .error (.invalidArgument "results travel through the pending table")
  | _ => (worker side).step (·.execute (.arrival msg))

/-- The router of an application between its two workers. -/
def fabric : Fabric Program Nat Side Side := { router, submit, forward }

/-- Makes a continuation. -/
def newCell (handler : Handler) : Program Nat :=
  modifyGet fun a => (a.cells.size, { a with cells := a.cells.push (.ofHandler handler) })

/-- Sends a command from a side. -/
def sendCmdFrom (side : Side) (continuation : Nat) (cmd : Cmd) (streaming : Bool) :
    Program (Except Fault RequestId) := do
  let outlet := (← get).outlet side
  match side with
  | .engine => outlet.sendCmd fabric cmd continuation streaming
  | .tester =>
    let answer ← PermitPool.during pool (outlet.sendCmd fabric cmd continuation streaming)
    if let .ok _ := answer then
      count fun c => { c with cmdsSent := c.cmdsSent + 1 }
    return answer

/-- Sends a command from the side that its handler belongs to. -/
def sendCmd (handler : Handler) (cmd : Cmd) (streaming : Bool) :
    Program (Except Fault RequestId) := do
  let continuation ← newCell handler
  let answer ← sendCmdFrom handler.side continuation cmd streaming
  if let .ok _ := answer then
    modify fun a => { a with sent := a.sent ++ [continuation] }
  return answer

/-- Queues a completion on the tester's worker. One that is refused is dropped. -/
def scheduleCompletion (completion : Completion) : Program Unit := do
  match ← (worker .tester).step (·.execute (.completion completion)) with
  | .ok () => return ()
  | .error _ =>
    match completion with
    | .promise i => settlePromise i .lost
    | .scripted _ | .foreign .. => return ()

/-- Makes a call of the tester inside the pool; when it succeeds it is counted and its completion
is queued. -/
def counted (call : Program (Except Fault Unit)) (f : Counters → Counters)
    (completion : Option Completion) : Program (Except Fault Unit) := do
  match ← PermitPool.during pool call with
  | .error e => return .error e
  | .ok () =>
    count f
    if let some completion := completion then scheduleCompletion completion
    return .ok ()

/-- Sends data or a frame from a side; completions are known to the tester only. -/
def send (side : Side) (msg : Message) (completion : Option Completion) :
    Program (Except Fault Unit) := do
  let outlet := (← get).outlet side
  match side with
  | .engine => outlet.send fabric msg
  | .tester =>
    counted (outlet.send fabric msg) (fun c => { c with oneWaySent := c.oneWaySent + 1 }) completion

/-- Returns a result from a side. -/
def returnResult (side : Side) (result : CmdResult) (completion : Option Completion) :
    Program (Except Fault Unit) :=
  match side with
  | .engine => fabric.returnResult result
  | .tester =>
    counted (fabric.returnResult result)
      (fun c => { c with resultsReturned := c.resultsReturned + 1 }) completion

/-- Closes the router and cancels what is pending. -/
def tearDown (reason : String) : Program Nat := do
  router.modify .close
  fabric.cancelAll reason

/-- Ends the test. The first time, the router closes and every pending request is cancelled; from
outside the tester's worker a mark is queued behind the cancellations. A worker that was shut
down takes no mark and needs none. -/
def stop (inside : Bool) : Program (Except Fault Unit) := do
  let stopped : Except Empty (Except Fault Bool) ← Lifecycle.beginStop lifecycle do
    let _ ← tearDown "test stopped"
    return .ok ()
  match stopped with
  | .ok (.ok true) =>
    if !inside then
      let _ ← (worker .tester).step (·.flush false)
    return .ok ()
  | .ok (.ok false) => return .ok ()
  | .ok (.error e) => return .error e
  | .error never => nomatch never

/-- Writes a line to the log, if its level is known. -/
def log (level : Int32) (site : LogSite) (message : String) : Program (Except Fault Unit) :=
  match LogRecord.ofLine level (some .trace) site message with
  | .error e => return .error e
  | .ok records => do
    modify fun a => { a with records := a.records ++ records }
    return .ok ()

/-- Closes the router, forgets its endpoints and cancels what is pending. -/
def abort (reason : String) : Program Nat := do
  router.modify .clearRoutes
  fabric.cancelAll reason

end Program
end Switchboard.App
