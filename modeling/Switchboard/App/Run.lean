import Switchboard.App.Drive
/-!
# Running an application to its end

A run installs a tester, starts both sides, and answers each announced phase with the callback
that belongs to it, until the last phase is announced. A run in which nothing is left to do
before that waits until its time is over.
-/
namespace Switchboard

/-- What a finished run amounts to. -/
structure RunReport where
  finalPhase : Phase
  env : App.EnvStats
  table : TableStats
  /-- callbacks that panicked, of either side -/
  panics : Nat
deriving DecidableEq

/-- A run that did not finish in time. -/
structure RunTimeout where
  name : String
  limit : Duration
  phase : Phase
  cancelled : Nat
deriving DecidableEq

/-- The timeout in words. -/
def RunTimeout.text (e : RunTimeout) : String :=
  e.name ++ " did not finish within " ++ e.limit.text ++ " (state " ++ e.phase.text ++ ", " ++
    toString e.cancelled ++ " request(s) cancelled)"

namespace App.Program

/-- Queues a callback of the tester. -/
def schedulePhase (callback : PhaseCallback) : Program Unit := do
  let _ ← (worker .tester).step (·.execute (.phase callback))

/-- Answers an announced phase; tells whether the run is over. -/
def answerPhase : PhaseEvent → Program Bool
  | .started => return false
  | .stopping => do
    schedulePhase .stop
    return false
  | .stopped => do
    schedulePhase .deinit
    return false
  | .deinited => return true

/-- Goes on after `seen` announcements: answers the next one if there is one, else runs a task.
Tells whether the last phase was announced. -/
def runOn (seen : Nat) : (limit : Nat) → Program Bool
  | 0 => return false
  | limit + 1 => do
    match (← get).lifecycle.announced[seen]? with
    | some event => if ← answerPhase event then return true else runOn (seen + 1) limit
    | none => if ← advanceAny then runOn seen limit else return false

/-- What the run amounts to at present. -/
def report : Program RunReport := do
  let a ← get
  return {
    finalPhase := a.lifecycle.phase
    env := a.stats
    table := a.router.table.stats
    panics := a.testerWorker.panicked + a.engineWorker.panicked }

/-- Gives up a run whose time is over. -/
def timeOut : Program RunTimeout := do
  let a ← get
  let cancelled ← abort "run timed out"
  return { name := a.name, limit := a.config.runTimeout, phase := a.lifecycle.phase, cancelled }

/-- Waits for all tasks of a worker by a mark behind them. -/
def drain (side : Side) : Program Unit := do
  let _ ← (worker side).step (·.flush false)
  advanceQueued side

/-- Installs a tester and starts both sides. -/
def startRun (tester : TesterScript) : Program Unit := do
  modify fun a => { a with tester := some tester }
  schedulePhase .start
  let _ ← (worker .engine).step (·.execute .startExtension)

/-- Runs a tester to the end and drops the application. -/
def runToEnd (tester : TesterScript) : Program (Except RunTimeout RunReport) := do
  startRun tester
  let finished ← runOn 0 settleLimit
  let outcome ←
    if finished then do
      drain .tester
      drain .engine
      settle
      pure (.ok (← report))
    else pure (.error (← timeOut))
  let _ ← drop
  return outcome

end App.Program
end Switchboard
