import Mathlib.Logic.Function.Basic
import Switchboard.Proofs.App.Workers
/-!
# Scenes of a run

A run is made by several threads at once: by the two workers, by whoever runs the tester, and by
anybody else who holds an environment. A scene is an application together with what its workers
are busy with, how far the runner has come, and a log of what concerns the tester. Every operation
on the router or the lifecycle is one act, whoever performs it and whenever; so are the beginning
and the end of a job and each step of the runner. In what order acts follow each other is left open.
-/
namespace Switchboard.App

/-- What a worker is busy with: a call of a handler that was taken out, or something else. -/
inductive Business where
  | call (cell : Nat) (handler : Handler) (terminal : Bool)
  | other

/-- How far somebody who runs a tester has come. -/
inductive Runner where
  | idle
  /-- the tester is installed -/
  | installed
  /-- the start of the tester is queued -/
  | starting
  /-- the start of the extension is queued, and so many announcements were answered -/
  | listening (seen : Nat)
  /-- the last phase was announced -/
  | finished
  /-- waits until so many more tasks of a worker were taken -/
  | draining (side : Side) (left : Nat)
  /-- the router is closed and everything is cancelled -/
  | aborted
  /-- waits for a worker that was shut down -/
  | shutting (side : Side)
  | returned
deriving DecidableEq

/-- What is logged: commands of the tester that were accepted, and the beginnings of its handlers
and callbacks. -/
inductive Entry where
  | sent (cell : Nat)
  | handler (cell : Nat) (outcome : Outcome)
  | message (msg : Message)
  | phase (callback : PhaseCallback)
deriving DecidableEq

/-- An application amid a run. -/
structure Scene where
  app : App
  busy : Side → Option Business := fun _ => none
  runner : Runner := .idle
  log : List Entry := []

/-- A single act of anybody. -/
inductive Act where
  /-- somebody performs an operation -/
  | operate (op : Operation)
  /-- somebody takes notes -/
  | note (notes : App)
  /-- an idle worker takes its oldest task -/
  | take (side : Side)
  /-- the job of a worker ends -/
  | finish (side : Side) (ended : Except Panic Unit)
  /-- somebody begins to run a tester -/
  | call (tester : TesterScript)
  /-- the runner goes on -/
  | proceed

/-- The tester's share in an operation: a command of its own that was accepted. -/
def Operation.entries (a : App) : (op : Operation) → op.Answer → List Entry
  | sendCmd handler _ _, .ok _ => if handler.side = .tester then [.sent a.cells.size] else []
  | sendCmd .., .error _ => []
  | send .., _ | returnResult _, _ | complete _, _ | stop, _ | await, _ | acknowledge _, _ => []

/-- One task less is waited for. -/
def Runner.countDown (side : Side) : Runner → Runner
  | draining other (left + 1) =>
    if side = other then draining other left else draining other (left + 1)
  | runner => runner

/-- Whoever does not wait for tasks of a worker stays where it is when that worker takes one. -/
theorem Runner.countDown_cases (r : Runner) (side : Side) :
    r.countDown side = r ∨
      ∃ left, r = .draining side (left + 1) ∧ r.countDown side = .draining side left := by
  cases r with
  | draining other left =>
    cases left with
    | zero => exact Or.inl rfl
    | succ left =>
      by_cases hside : side = other
      · subst hside
        exact Or.inr ⟨left, rfl, if_pos rfl⟩
      · exact Or.inl (if_neg hside)
  | idle | installed | starting | listening | finished | aborted | shutting | returned =>
    exact Or.inl rfl

/-- The application after a task of a worker was counted. -/
def counted (a : App) (side : Side) (ended : Except Panic Unit) : App :=
  a.setWorker side ((a.worker side).count ended)

/-- The application after a job of a worker has ended: a handler that was called is put back. -/
def ending (a : App) : Business → App
  | .call i handler terminal =>
    a.setCell i ((a.cells.getD i { slot := .released }).putBack terminal handler)
  | .other => a

namespace Scene

/-- A new application with idle workers, which nobody runs yet. -/
def ofApp (a : App) : Scene := { app := a }

/-- A worker gets busy. -/
def occupy (s : Scene) (side : Side) (business : Business) (entries : List Entry) : Scene :=
  { s with busy := Function.update s.busy side (some business), log := s.log ++ entries }

/-- A worker begins with the delivery of an outcome. -/
def resume (s : Scene) (side : Side) (i : Nat) (outcome : Outcome) (terminal : Bool) : Scene :=
  let visited := (s.app.cells.getD i { slot := .released }).takeOut outcome terminal
  let s := { s with app := s.app.setCell i visited.2 }
  match visited.1 with
  | none => s.occupy side .other []
  | some (handler, _) =>
    s.occupy side (.call i handler terminal)
      (if handler.side = .tester then [.handler i outcome] else [])

/-- A worker begins with a task. What concerns the tester's callbacks is dropped when no tester is
installed. -/
def start (s : Scene) (side : Side) : Task Job → Scene
  | .mark => { s with app := s.app.counted side (.ok ()) }
  | .job (.resume i outcome terminal) => s.resume side i outcome terminal
  | .job (.arrival msg) =>
    s.occupy side .other (if side = .tester ∧ s.app.tester.isSome then [.message msg] else [])
  | .job (.phase callback) =>
    s.occupy side .other (if s.app.tester.isSome then [.phase callback] else [])
  | .job (.initExtension _) | .job .startExtension | .job (.completion _) =>
    s.occupy side .other []

/-- A worker takes its oldest task, if it is idle and has one. -/
def take (s : Scene) (side : Side) : Option Scene :=
  match s.busy side, (s.app.worker side).queue with
  | none, task :: _ =>
    some (start { s with app := s.app.popped side, runner := s.runner.countDown side } side task)
  | none, [] | some _, _ => none

/-- A worker ends its job, if it has one. -/
def finish (s : Scene) (side : Side) (ended : Except Panic Unit) : Option Scene :=
  (s.busy side).map fun business =>
    { s with
      app := (s.app.ending business).counted side ended
      busy := Function.update s.busy side none }

/-- The runner does something and is then where that leads it. -/
def become {α : Type} (s : Scene) (p : Program α) (next : α → Runner) : Scene :=
  { s with app := (p.run s.app).2, runner := next (p.run s.app).1 }

/-- The runner begins to wait for all tasks that a worker has now. -/
def flush (s : Scene) (side : Side) : Scene :=
  s.become (do
    let _ ← (Program.worker side).step (·.flush false)
    return (← (Program.worker side).get).queue.length) (.draining side)

/-- The runner goes on, unless it waits for something. -/
def proceed (s : Scene) : Option Scene :=
  match s.runner with
  | .idle | .returned | .draining _ (_ + 1) => none
  | .installed => some (s.become (Program.schedulePhase .start) fun _ => .starting)
  | .starting =>
    some (s.become ((Program.worker .engine).step (·.execute .startExtension)) fun _ =>
      .listening 0)
  | .listening seen =>
    s.app.lifecycle.announced[seen]?.map fun event =>
      s.become (Program.answerPhase event) fun last =>
        if last then .finished else .listening (seen + 1)
  | .finished => some (s.flush .tester)
  | .draining .tester 0 => some (s.flush .engine)
  | .draining .engine 0 =>
    some (s.become (Program.abort "tester dropped") fun _ => .aborted)
  | .aborted =>
    some (s.become ((Program.worker .tester).modify .shutDown) fun _ => .shutting .tester)
  | .shutting side =>
    match s.busy side, (s.app.worker side).queue, side with
    | none, [], .tester =>
      some (s.become ((Program.worker .engine).modify .shutDown) fun _ => .shutting .engine)
    | none, [], .engine =>
      some (s.become (modify fun a => { a with dropped := true, tester := none }) fun _ =>
        .returned)
    | some _, _, _ | none, _ :: _, _ => none

/-- The runner's steps: whence it goes on, and what it does then. -/
inductive GoesOn (s : Scene) : Scene → Prop where
  | start (hrunner : s.runner = .installed) :
    s.GoesOn (s.become (Program.schedulePhase .start) fun _ => .starting)
  | launch (hrunner : s.runner = .starting) :
    s.GoesOn (s.become ((Program.worker .engine).step (·.execute .startExtension)) fun _ =>
      .listening 0)
  | answer (seen : Nat) (event : PhaseEvent) (hrunner : s.runner = .listening seen)
      (hevent : s.app.lifecycle.announced[seen]? = some event) :
    s.GoesOn (s.become (Program.answerPhase event) fun last =>
      if last then .finished else .listening (seen + 1))
  | flushTester (hrunner : s.runner = .finished) : s.GoesOn (s.flush .tester)
  | flushEngine (hrunner : s.runner = .draining .tester 0) : s.GoesOn (s.flush .engine)
  | abort (hrunner : s.runner = .draining .engine 0) :
    s.GoesOn (s.become (Program.abort "tester dropped") fun _ => .aborted)
  | shutTester (hrunner : s.runner = .aborted) :
    s.GoesOn (s.become ((Program.worker .tester).modify .shutDown) fun _ => .shutting .tester)
  | shutEngine (hrunner : s.runner = .shutting .tester)
      (hqueue : (s.app.worker .tester).queue = []) :
    s.GoesOn (s.become ((Program.worker .engine).modify .shutDown) fun _ => .shutting .engine)
  | leave (hrunner : s.runner = .shutting .engine)
      (hqueue : (s.app.worker .engine).queue = []) :
    s.GoesOn (s.become (modify fun a => { a with dropped := true, tester := none }) fun _ =>
      .returned)

/-- The runner goes on by one of its steps. -/
theorem goesOn_of_proceed {s s' : Scene} (h : s.proceed = some s') : s.GoesOn s' := by
  rw [proceed] at h
  split at h
  · cases h
  · cases h
  · cases h
  · next hrunner =>
    cases h
    exact .start hrunner
  · next hrunner =>
    cases h
    exact .launch hrunner
  · next seen hrunner =>
    obtain ⟨event, hevent, rfl⟩ := Option.map_eq_some_iff.mp h
    exact .answer seen event hrunner hevent
  · next hrunner =>
    cases h
    exact .flushTester hrunner
  · next hrunner =>
    cases h
    exact .flushEngine hrunner
  · next hrunner =>
    cases h
    exact .abort hrunner
  · next hrunner =>
    cases h
    exact .shutTester hrunner
  · next side hrunner =>
    split at h
    · next hqueue =>
      cases h
      exact .shutEngine hrunner hqueue
    · next hqueue =>
      cases h
      exact .leave hrunner hqueue
    · cases h
    · cases h

/-- What becomes of a scene by an act, if it is possible. -/
def perform (s : Scene) : Act → Option Scene
  | .operate op =>
    some { s with
      app := (op.perform.run s.app).2
      log := s.log ++ op.entries s.app (op.perform.run s.app).1 }
  | .note notes => some { s with app := s.app.annotate notes }
  | .take side => s.take side
  | .finish side ended => s.finish side ended
  | .call tester =>
    match s.runner with
    | .idle => some { s with app := { s.app with tester := some tester }, runner := .installed }
    | _ => none
  | .proceed => s.proceed

/-- What becomes of a scene by acts that follow each other. -/
def run (s : Scene) : List Act → Option Scene
  | [] => some s
  | act :: acts => (s.perform act).bind fun s => s.run acts

/-- A worker can begin with a task only when it is idle. -/
theorem take_eq_some {s s' : Scene} {side : Side} (h : s.take side = some s') :
    s.busy side = none ∧ ∃ task tasks, (s.app.worker side).queue = task :: tasks ∧
      s' = start { s with app := s.app.popped side, runner := s.runner.countDown side } side
        task := by
  rw [take] at h
  split at h
  · next hidle hqueue => exact ⟨hidle, _, _, hqueue, (Option.some.inj h).symm⟩
  · cases h
  · cases h

/-- A tester can be installed only when none was before. -/
theorem call_eq_some {s s' : Scene} {tester : TesterScript}
    (h : s.perform (.call tester) = some s') :
    s.runner = .idle ∧
      s' = { s with app := { s.app with tester := some tester }, runner := .installed } := by
  rw [perform] at h
  split at h
  · next hidle => exact ⟨hidle, (Option.some.inj h).symm⟩
  · cases h

theorem run_append (s : Scene) (acts more : List Act) :
    s.run (acts ++ more) = (s.run acts).bind fun s => s.run more := by
  induction acts generalizing s with
  | nil => rfl
  | cons act acts ih =>
    cases h : s.perform act with
    | none => simp [run, h]
    | some s' => simp [run, h, ih]

end Scene
end Switchboard.App
