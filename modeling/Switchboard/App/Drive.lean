import Switchboard.App.Build
import Switchboard.App.Callbacks
import Switchboard.App.Future
/-!
# Driving an application from outside

After each step from outside the workers run until nothing is queued any more. Dropping an
application closes its router, cancels what is pending, and stops both workers after their last
job.
-/
namespace Switchboard.App.Program

/-- Runs one task, of the tester's worker before the engine's; tells whether there was one. -/
def advanceAny : Program Bool := do
  if ← advance .tester then return true else advance .engine

/-- Runs tasks until none is queued, but at most so many; tells whether it came to an end. -/
def settleWithin : (limit : Nat) → Program Bool
  | 0 => return false
  | limit + 1 => do
    if ← advanceAny then settleWithin limit else return true

/-- How many tasks may run between two steps. -/
def settleLimit : Nat := 10000000

/-- Runs tasks until none is queued. -/
def settle : Program Unit := do
  let _ ← settleWithin settleLimit

/-- Runs so many tasks of one worker. -/
def advanceTimes (side : Side) : (n : Nat) → Program Unit
  | 0 => return ()
  | n + 1 => do
    let _ ← advance side
    advanceTimes side n

/-- Runs all tasks that a worker has now. -/
def advanceQueued (side : Side) : Program Unit := do
  advanceTimes side (← (worker side).get).queue.length

/-- Waits on behalf of those who have put a mark into the tester's queue. -/
def awaitMarks : Program Unit := do
  if (← (worker .tester).get).queue.any Task.isMark then advanceQueued .tester

/-- Stops the intake of a worker and runs what it has. -/
def shutDownWorker (side : Side) : Program Unit := do
  (worker side).modify .shutDown
  advanceQueued side

/-- Tears the application down, if that has not been done before; tells whether it did. -/
def drop : Program Bool := do
  if (← get).dropped then return false
  let _ ← abort "tester dropped"
  shutDownWorker .tester
  shutDownWorker .engine
  modify fun a => { a with dropped := true, tester := none }
  return true

/-- Performs a step from outside, without waiting. -/
def perform : Step → Program Answer
  | .act action => do
    match ← act .tester false none action with
    | .ok answer => return answer
    | .error panic => return .panicked panic
  | .ext actions => do
    match ← actAll .engine false none actions with
    | .ok () => return .done (.ok ())
    | .error panic => return .panicked panic
  | .dropApp => return .flag (← drop)
  | .asyncCmd tag cmd => do
    sendCmdAsync tag cmd
    return .done (.ok ())
  | .asyncData tag data => do
    sendDataAsync tag data
    return .done (.ok ())
  | .poll tag => poll tag
  | .dropFuture tag => return .flag (← dropFuture tag)
  | .foreign call => foreign call

/-- Performs a step from outside; it ends when whatever it waits for has happened. -/
def step (s : Step) : Program Answer := do
  let answer ← perform s
  awaitMarks
  return answer

/-- Takes the events of both sides that were shown since they were last taken. -/
def takeEvents : Program (List Event × List Event) :=
  modifyGet fun a =>
    ((a.engineEvents, a.testerEvents), { a with engineEvents := [], testerEvents := [] })

/-- Takes the lines that were logged since they were last taken. -/
def takeRecords : Program (List LogRecord) :=
  modifyGet fun a => (a.records, { a with records := [] })

/-- Performs a step from outside and lets the workers run. -/
def stepAndSettle (s : Step) : Program Answer := do
  let answer ← step s
  settle
  return answer

end Switchboard.App.Program
