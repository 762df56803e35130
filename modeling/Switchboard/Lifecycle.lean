import Switchboard.Fault
import Switchboard.Place
/-!
# Lifecycle of a run

A run moves forward through five phases. The tester acknowledges each phase; stopping is asked
for once and tears the run down before the phase is announced. Announcements go to a listener,
who may be gone.
-/
namespace Switchboard

/-- The phase of a run. -/
inductive Phase where
  | created
  | started
  | stopping
  | stopped
  | deinited
deriving DecidableEq

namespace Phase

/-- The name of a phase in texts. -/
def text : Phase → String
  | created => "created"
  | started => "started"
  | stopping => "stopping"
  | stopped => "stopped"
  | deinited => "deinited"

/-- The place of a phase in the order of a run. -/
def rank : Phase → Nat
  | created => 0
  | started => 1
  | stopping => 2
  | stopped => 3
  | deinited => 4

end Phase

/-- What is announced when a phase was entered. -/
inductive PhaseEvent where
  | started
  | stopping
  | stopped
  | deinited
deriving DecidableEq

namespace PhaseEvent

/-- The phase whose entry is announced. -/
def phase : PhaseEvent → Phase
  | started => .started
  | stopping => .stopping
  | stopped => .stopped
  | deinited => .deinited

/-- The name of the announcement. -/
def name : PhaseEvent → String
  | started => "Started"
  | stopping => "Stopping"
  | stopped => "Stopped"
  | deinited => "Deinited"

end PhaseEvent

/-- The phase of a run and what its listener was told so far, oldest first. -/
structure Lifecycle where
  phase : Phase := .created
  announced : List PhaseEvent := []
  listening : Bool := true
deriving DecidableEq

namespace Lifecycle

/-- Tells the listener, if it is still there. -/
def announce (l : Lifecycle) (event : PhaseEvent) : Lifecycle :=
  if l.listening then { l with announced := l.announced ++ [event] } else l

/-- The listener goes away for good. -/
def dropListener (l : Lifecycle) : Lifecycle := { l with listening := false }

/-- Enters the phase of `event` from `source` and announces it; `operation` is refused in any
other phase. -/
def advance (l : Lifecycle) (source : Phase) (event : PhaseEvent) (operation : String) :
    Except Fault Unit × Lifecycle :=
  if l.phase = source then (.ok (), { l with phase := event.phase }.announce event)
  else (.error (.invalidState
    (operation ++ " called while " ++ l.phase.text ++ "; expected " ++ source.text)), l)

/-- The tester has started. -/
def startDone (l : Lifecycle) : Except Fault Unit × Lifecycle :=
  l.advance .created .started "on_start_done"

/-- The tester has stopped. -/
def stopDone (l : Lifecycle) : Except Fault Unit × Lifecycle :=
  l.advance .stopping .stopped "on_stop_done"

/-- The tester has cleaned up. -/
def deinitDone (l : Lifecycle) : Except Fault Unit × Lifecycle :=
  l.advance .stopped .deinited "on_deinit_done"

/-- Enters the stopping phase of a started run, unannounced. Tells whether it did; a run that is
already past that point is left alone, one that was not started refuses. -/
def enterStopping (l : Lifecycle) : Except Fault Bool × Lifecycle :=
  match l.phase with
  | .created => (.error (.invalidState "stop_test called before the test started"), l)
  | .started => (.ok true, { l with phase := .stopping })
  | .stopping | .stopped | .deinited => (.ok false, l)

/-- Enters the stopping phase, runs `teardown`, then announces the phase. The teardown may look
at the lifecycle and change it; if it ends early by an `ε`, such as a panic, nothing is
announced. -/
def beginStop {m : Type → Type} [Monad m] {ε : Type} (lifecycle : Place m Lifecycle)
    (teardown : m (Except ε Unit)) : m (Except ε (Except Fault Bool)) := do
  match ← lifecycle.step enterStopping with
  | .ok true =>
    match ← teardown with
    | .error e => return .error e
    | .ok () =>
      lifecycle.modify (announce · .stopping)
      return .ok (.ok true)
  | answer => return .ok answer

end Lifecycle

/-- What may be done to a lifecycle; a teardown is a list of such acts. -/
inductive PhaseAct where
  | startDone
  | stopDone
  | deinitDone
  | beginStop (teardown : List PhaseAct)
  | panic (panic : Panic)

/-- What an act answers. -/
inductive PhaseAnswer where
  | done (result : Except Fault Unit)
  | stop (result : Except Fault Bool)

/-- What a teardown saw: the phase at its beginning, then the answer of each of its acts. -/
inductive TeardownEntry where
  | phase (phase : Phase)
  | answer (answer : PhaseAnswer)

/-- A lifecycle with what it was before each of its steps and the records of its teardowns, both
oldest first. -/
structure PhaseScene where
  lifecycle : Lifecycle := {}
  past : List Lifecycle := []
  records : List TeardownEntry := []

namespace PhaseScene

/-- The lifecycle makes a step. -/
def moveTo (scene : PhaseScene) (l : Lifecycle) : PhaseScene :=
  { scene with lifecycle := l, past := scene.past ++ [scene.lifecycle] }

/-- The lifecycle of a scene. -/
def lifecyclePlace : Place (StateM PhaseScene) Lifecycle := .part lifecycle moveTo

/-- Adds a record. -/
def note (entry : TeardownEntry) : StateM PhaseScene Unit :=
  modify fun scene => { scene with records := scene.records ++ [entry] }

end PhaseScene

mutual

/-- Performs one act. -/
def PhaseAct.perform : PhaseAct → StateM PhaseScene (Except Panic PhaseAnswer)
  | .startDone => return .ok (.done (← PhaseScene.lifecyclePlace.step Lifecycle.startDone))
  | .stopDone => return .ok (.done (← PhaseScene.lifecyclePlace.step Lifecycle.stopDone))
  | .deinitDone => return .ok (.done (← PhaseScene.lifecyclePlace.step Lifecycle.deinitDone))
  | .beginStop teardown => do
    let answer ← Lifecycle.beginStop PhaseScene.lifecyclePlace do
      PhaseScene.note (.phase (← get).lifecycle.phase)
      PhaseAct.performAll teardown
    return answer.map .stop
  | .panic p => return .error p

/-- Performs the acts of a teardown in order, up to the first panic, and records the answers. -/
def PhaseAct.performAll : List PhaseAct → StateM PhaseScene (Except Panic Unit)
  | [] => return .ok ()
  | act :: acts => do
    match ← act.perform with
    | .error p => return .error p
    | .ok answer =>
      PhaseScene.note (.answer answer)
      PhaseAct.performAll acts

end

end Switchboard
