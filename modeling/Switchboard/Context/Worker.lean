import Switchboard.Fault
import Switchboard.Place
/-!
# Workers

A serial context with a thread of its own: it runs its jobs one after the other in the order in
which they were queued. A panic ends only the job in which it happens. Shutting a worker down
stops the intake, and what was queued before still runs.
-/
namespace Switchboard

/-- What waits in the queue of a worker: a job, or the mark of somebody who waits for the jobs
before it. -/
inductive Task (J : Type) where
  | job (job : J)
  | mark

/-- Whether somebody waits for a task. -/
def Task.isMark {J : Type} : Task J → Bool
  | .mark => true
  | .job _ => false

/-- Queued tasks, oldest first, and what became of the earlier ones. -/
structure Worker (J : Type) where
  name : String
  queue : List (Task J) := []
  accepting : Bool := true
  executed : Nat := 0
  panicked : Nat := 0

namespace Worker

variable {J : Type}

/-- Queues a task, unless the worker was shut down. -/
def accept (task : Task J) (w : Worker J) : Except Fault Unit × Worker J :=
  if w.accepting then (.ok (), { w with queue := w.queue ++ [task] })
  else (.error (.dispatchFailure ("context " ++ w.name ++ " is shut down")), w)

/-- Queues a job, unless the worker was shut down. -/
def execute (job : J) (w : Worker J) : Except Fault Unit × Worker J := w.accept (.job job)

/-- Asks to be told when all tasks of now have run. From a job of the worker itself this is
refused, for it would never come. -/
def flush (inside : Bool) (w : Worker J) : Except Fault Unit × Worker J :=
  if inside then
    (.error (.invalidState ("cannot flush " ++ w.name ++ " from its own thread")), w)
  else w.accept .mark

/-- Stops the intake. -/
def shutDown (w : Worker J) : Worker J := { w with accepting := false }

/-- Takes the oldest task. -/
def next (w : Worker J) : Option (Task J) × Worker J :=
  match w.queue with
  | [] => (none, w)
  | task :: tasks => (some task, { w with queue := tasks })

/-- Counts a task that has run. -/
def count (ended : Except Panic Unit) (w : Worker J) : Worker J :=
  match ended with
  | .ok () => { w with executed := w.executed + 1 }
  | .error _ => { w with executed := w.executed + 1, panicked := w.panicked + 1 }

@[simp] theorem queue_count (ended : Except Panic Unit) (w : Worker J) :
    (w.count ended).queue = w.queue := by
  cases ended <;> rfl

@[simp] theorem accepting_count (ended : Except Panic Unit) (w : Worker J) :
    (w.count ended).accepting = w.accepting := by
  cases ended <;> rfl

/-- A worker that is shut down takes nothing, and its queue stays as it is. -/
theorem accept_of_not_accepting {w : Worker J} (h : w.accepting = false) (task : Task J) :
    w.accept task = (.error (.dispatchFailure ("context " ++ w.name ++ " is shut down")), w) := by
  simp [accept, h]

/-- A worker that is not shut down takes every task behind the others. -/
theorem accept_of_accepting {w : Worker J} (h : w.accepting = true) (task : Task J) :
    w.accept task = (.ok (), { w with queue := w.queue ++ [task] }) := by
  simp [accept, h]

end Worker
end Switchboard
