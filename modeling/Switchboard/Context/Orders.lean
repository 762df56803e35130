import Switchboard.Context.Worker
/-!
# Orders to a worker

A worker under orders: its jobs are lists of acts. They note what they see, queue further jobs,
try to flush their own worker, shut it down, and panic. Between two orders from outside the worker
stands still, unless the order waits for it.
-/
namespace Switchboard

/-- What a running job does. -/
inductive WorkAct (τ : Type) where
  /-- notes a tag -/
  | note (tag : τ)
  /-- notes a tag, and whether its worker is the current one -/
  | look (tag : τ)
  /-- tries to flush its own worker, without and with a time limit -/
  | flush
  /-- shuts its own worker down -/
  | shutDown
  /-- queues a job and notes under a tag whether it was taken -/
  | queue (tag : τ) (job : List (WorkAct τ))
  | panic (panic : Panic)

/-- A job of a worker under orders. -/
abbrev Work (τ : Type) := List (WorkAct τ)

mutual

/-- Whether an act, or a job that it queues, shuts the worker down. -/
def WorkAct.shutsDown {τ : Type} : WorkAct τ → Bool
  | .shutDown => true
  | .queue _ job => Work.shutsDown job
  | .note _ | .look _ | .flush | .panic _ => false

/-- Whether a job, or one that it leads to, shuts the worker down. -/
def Work.shutsDown {τ : Type} : List (WorkAct τ) → Bool
  | [] => false
  | act :: acts => act.shutsDown || Work.shutsDown acts

end

mutual

/-- How many jobs an act leads to. -/
def WorkAct.weight {τ : Type} : WorkAct τ → Nat
  | .queue _ job => 1 + Work.weight job
  | .note _ | .look _ | .flush | .shutDown | .panic _ => 0

/-- How many jobs a job leads to, apart from itself. -/
def Work.weight {τ : Type} : List (WorkAct τ) → Nat
  | [] => 0
  | act :: acts => act.weight + Work.weight acts

end

/-- What a job notes. -/
inductive WorkNote (τ : Type) where
  | tag (tag : τ)
  | looked (tag : τ) (current : Bool)
  | flushed (flush flushTimeout : Except Fault Unit)
  | queued (tag : τ) (answer : Except Fault Unit)

/-- An order from outside. -/
inductive Order (τ : Type) where
  | execute (job : Work τ)
  | flush
  | flushTimeout
  /-- asks for a flush while the worker is held up before its next job -/
  | flushHeld
  | shutDown
  | info

/-- What an order answers. -/
inductive OrderAnswer where
  | done (result : Except Fault Unit)
  | inTime (result : Except Fault Bool)
  | info (name : String) (current : Bool)

/-- A worker, what its jobs noted, and whether one of them will shut it down. -/
structure Workshop (τ : Type) where
  worker : Worker (Work τ)
  notes : List (WorkNote τ) := []
  willShutDown : Bool := false

namespace Workshop

variable {τ : Type}

/-- Adds a note. -/
def note (s : Workshop τ) (entry : WorkNote τ) : Workshop τ :=
  { s with notes := s.notes ++ [entry] }

/-- Performs an act of a running job. -/
def perform (s : Workshop τ) : WorkAct τ → Except Panic Unit × Workshop τ
  | .note tag => (.ok (), s.note (.tag tag))
  | .look tag => (.ok (), s.note (.looked tag true))
  | .flush =>
    let (first, worker) := s.worker.flush true
    let (second, worker) := worker.flush true
    (.ok (), { s with worker }.note (.flushed first second))
  | .shutDown => (.ok (), { s with worker := s.worker.shutDown })
  | .queue tag job =>
    let (answer, worker) := s.worker.execute job
    (.ok (), { s with worker }.note (.queued tag answer))
  | .panic panic => (.error panic, s)

/-- Runs a job: performs its acts in order, up to the first panic. -/
def runJob (s : Workshop τ) : Work τ → Except Panic Unit × Workshop τ
  | [] => (.ok (), s)
  | act :: acts =>
    match s.perform act with
    | (.error panic, s) => (.error panic, s)
    | (.ok (), s) => s.runJob acts

/-- Runs the oldest task, if there is one. -/
def advance (s : Workshop τ) : Workshop τ :=
  match s.worker.next with
  | (none, _) => s
  | (some .mark, worker) => { s with worker := worker.count (.ok ()) }
  | (some (.job job), worker) =>
    let (ended, s) := { s with worker }.runJob job
    { s with worker := s.worker.count ended }

/-- Runs so many tasks, or all if there are fewer. -/
def advanceBy (s : Workshop τ) : Nat → Workshop τ
  | 0 => s
  | n + 1 => s.advance.advanceBy n

/-- How many tasks a task leads to, itself included. -/
def weight : Task (Work τ) → Nat
  | .job job => 1 + Work.weight job
  | .mark => 1

/-- How many tasks some tasks lead to, themselves included. -/
def weightOf : List (Task (Work τ)) → Nat
  | [] => 0
  | task :: tasks => weight task + weightOf tasks

/-- How many tasks are still to be run. -/
def load (s : Workshop τ) : Nat := weightOf s.worker.queue

/-- Runs all tasks, those included that are queued meanwhile. -/
def drain (s : Workshop τ) : Workshop τ := s.advanceBy s.load

/-- Waits for everything that is queued, by a mark behind it. -/
def flush (s : Workshop τ) : Except Fault Unit × Workshop τ :=
  let s := if s.willShutDown then s.drain else s
  let (answer, worker) := s.worker.flush false
  (answer, { s with worker }.drain)

/-- Waits for a mark that cannot be reached before the time is up, unless nothing is before it. -/
def flushHeld (s : Workshop τ) : Except Fault Bool × Workshop τ :=
  let reachable := s.worker.queue.isEmpty
  match s.worker.flush false with
  | (.error e, worker) => (.error e, { s with worker })
  | (.ok (), worker) =>
    let s := { s with worker }
    (.ok reachable, if reachable then s.drain else s)

/-- Stops the intake and waits for everything that is queued. -/
def shutDown (s : Workshop τ) : Workshop τ := { s with worker := s.worker.shutDown }.drain

/-- Obeys an order from outside. -/
def obey (s : Workshop τ) : Order τ → OrderAnswer × Workshop τ
  | .execute job =>
    let (answer, worker) := s.worker.execute job
    (.done answer, { s with worker, willShutDown := s.willShutDown || Work.shutsDown job })
  | .flush => let (answer, s) := s.flush; (.done answer, s)
  | .flushTimeout => let (answer, s) := s.flush; (.inTime (answer.map fun _ => true), s)
  | .flushHeld => let (answer, s) := s.flushHeld; (.inTime answer, s)
  | .shutDown => (.done (.ok ()), s.shutDown)
  | .info => (.info s.worker.name false, s)

@[simp] theorem weightOf_append (first second : List (Task (Work τ))) :
    weightOf (first ++ second) = weightOf first + weightOf second := by
  induction first with
  | nil => exact (Nat.zero_add _).symm
  | cons task tasks ih => rw [List.cons_append, weightOf, weightOf, ih, Nat.add_assoc]

@[simp] theorem load_note (s : Workshop τ) (entry : WorkNote τ) : (s.note entry).load = s.load :=
  rfl

/-- An act adds no more to the load than its weight. -/
theorem load_perform_le (s : Workshop τ) (act : WorkAct τ) :
    (s.perform act).2.load ≤ s.load + act.weight := by
  cases act with
  | note tag => exact Nat.le_add_right _ _
  | look tag => exact Nat.le_add_right _ _
  | flush => exact Nat.le_add_right _ _
  | shutDown => exact Nat.le_add_right _ _
  | panic panic => exact Nat.le_add_right _ _
  | queue tag job =>
    simp only [perform, load_note, Worker.execute, Worker.accept, WorkAct.weight]
    split <;> simp [load, weightOf, weight]

/-- A job adds no more to the load than its weight. -/
theorem load_runJob_le (s : Workshop τ) (job : Work τ) :
    (s.runJob job).2.load ≤ s.load + Work.weight job := by
  induction job generalizing s with
  | nil => exact Nat.le_refl _
  | cons act acts ih =>
    have first := load_perform_le s act
    rw [runJob]
    split
    · next h =>
      rw [h] at first
      exact Nat.le_trans first (by simp only [Work.weight]; omega)
    · next t h =>
      simp only [h] at first
      have rest := ih t
      simp only [Work.weight]
      omega

/-- Each task that is run makes the load smaller. -/
theorem load_advance (s : Workshop τ) : s.advance.load ≤ s.load - 1 := by
  rw [advance, Worker.next]
  cases h : s.worker.queue with
  | nil => simp [load, h, weightOf]
  | cons task tasks =>
    cases task with
    | mark => simp [load, h, weightOf, weight]
    | job job =>
      have after := load_runJob_le { s with worker := { s.worker with queue := tasks } } job
      simp only [load, h, weightOf, weight, Worker.queue_count] at after ⊢
      omega

/-- Nothing is left to run after as many tasks as the load. -/
theorem load_advanceBy (s : Workshop τ) (n : Nat) : (s.advanceBy n).load ≤ s.load - n := by
  induction n generalizing s with
  | zero => exact Nat.le_refl _
  | succ n ih =>
    have first := load_advance s
    have rest := ih s.advance
    rw [advanceBy]
    omega

/-- A workshop that has been drained has an empty queue. -/
theorem queue_drain (s : Workshop τ) : s.drain.worker.queue = [] := by
  have done := load_advanceBy s s.load
  rw [Nat.sub_self, Nat.le_zero] at done
  cases h : s.drain.worker.queue with
  | nil => rfl
  | cons task tasks =>
    rw [← drain, load, h, weightOf] at done
    cases task <;> simp only [weight] at done <;> omega

end Workshop
end Switchboard
