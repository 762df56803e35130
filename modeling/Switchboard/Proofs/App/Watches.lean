import Switchboard.Proofs.App.Drives
import Switchboard.Proofs.Foreign.Deliveries
import Switchboard.Proofs.Run.Scene
/-!
# Whoever keeps a promise

A promise is kept by the handler of a command, or by the completion of a message. Nobody else
touches it; and nothing else depends on who waits for an outcome, or on what promises hold. So an
application goes on in the same way as another one in which somebody else waits, until the outcome
arrives.
-/
namespace Switchboard

/-- A worker with nothing to do. -/
def Worker.emptied {J : Type} (w : Worker J) : Worker J := { w with queue := [] }

namespace App

/-- A handler without the number of the promise that it may keep. -/
def Handler.masked : Handler → Handler
  | promise _ => .promise 0
  | scripted side tag followUp panicOn current => .scripted side tag followUp panicOn current
  | foreign i listener => .foreign i listener
  | silent => .silent

/-- A completion without the number of the promise that it may keep. -/
def Completion.masked : Completion → Completion
  | promise _ => .promise 0
  | scripted ack => .scripted ack
  | foreign i handle callback => .foreign i handle callback

/-- A job without the number of the promise that it may keep. -/
def Job.masked : Job → Job
  | completion c => .completion c.masked
  | resume cell outcome terminal => .resume cell outcome terminal
  | arrival msg => .arrival msg
  | initExtension properties => .initExtension properties
  | startExtension => .startExtension
  | phase callback => .phase callback

/-- A task without the number of the promise that it may keep. -/
def maskedTask (task : Task Job) : Task Job := task.map Job.masked

/-- What a task refers to is there, among so many continuations and promises. -/
def AnchoredTask (cells promises : Nat) : Task Job → Prop
  | .job (.resume k _ _) => k < cells
  | .job (.completion (.promise p)) => p < promises
  | .job (.completion (.scripted _)) | .job (.completion (.foreign ..)) | .job (.arrival _)
  | .job (.initExtension _) | .job .startExtension | .job (.phase _) | .mark => True

/-- Whatever is referred to is there: the continuations of requests and deliveries, and the promises
of handlers and completions. -/
structure Anchored (a : App) : Prop where
  sharded : a.router.table.Sharded
  entries : ∀ e ∈ a.router.table.entries, e.2.continuation < a.cells.size
  tasks : ∀ side, ∀ task ∈ (a.worker side).queue, AnchoredTask a.cells.size a.promises.size task
  handlers : ∀ (i : Nat) (c : Continuation Handler) (p : Nat), a.cells[i]? = some c →
    c.slot = .waiting (.promise p) → p < a.promises.size

/-- What somebody watches of an application. A continuation may be watched, with what it is; a
promise, with what it may hold while so many endings are owed to the continuation or so many
completions for the promise are queued. -/
structure Watch where
  cell : Option (Nat × Continuation Handler) := none
  promise : Option Nat := none
  /-- the completion that another application has in place of the one that keeps the promise -/
  twin : Option Completion := none
  /-- at least so many continuations are there -/
  cells : Nat := 0
  /-- at least so many promises are there -/
  promises : Nat := 0
  fits : Nat → Option Promise → Prop
  inRange : ∀ p, promise = some p → p < promises
  /-- an ending that is lost takes the promise with it -/
  loses : ∀ k c n held, cell = some (k, c) → fits (n + 1) held →
    fits n (some .lost) ∧ ∃ p, promise = some p ∧ c.slot = .waiting (.promise p)

namespace Watch

variable (w : Watch)

/-- The number of the continuation that is watched. -/
def number : Option Nat := w.cell.map (·.1)

/-- Whether a task is for the continuation that is watched, or keeps the promise. -/
def keeps : Task Job → Bool
  | .job (.resume k _ _) => w.number = some k
  | .job (.completion (.promise p)) => w.promise = some p
  | .job (.completion (.scripted _)) | .job (.completion (.foreign ..)) | .job (.arrival _)
  | .job (.initExtension _) | .job .startExtension | .job (.phase _) | .mark => false

/-- A delivery that is queued is the last one of its request, and carries an outcome that ends it. A
completion is for a promise that no continuation keeps. -/
def Last : Task Job → Prop
  | .job (.resume _ outcome terminal) => terminal = true ∧ outcome.isTerminal = true
  | .job (.completion _) => w.number = none
  | .job (.arrival _) | .job (.initExtension _) | .job .startExtension | .job (.phase _) | .mark =>
    True

/-- How many endings a table owes to the continuation that is watched. -/
def waiting (t : PendingTable Nat Side) : Nat := w.number.elim 0 t.waitingFor

/-- How many endings the continuation is owed, and how many completions will keep the promise. -/
def owed (a : App) : Nat :=
  w.waiting a.router.table + a.testerWorker.queue.countP w.keeps

/-- What the promise that is watched holds. -/
def held (a : App) : Option Promise := w.promise.bind (a.promises[·]?)

/-- A handler as it is seen from outside: nobody sees who listens at the continuation that is
watched. -/
def veil (i : Nat) : Handler → Handler :=
  if w.number = some i then fun _ => .silent else Handler.masked

/-- A task as it is in the second application: another completion may be in place of the one that
keeps the promise. -/
def replaced : Task Job → Task Job
  | .job (.completion (.promise p)) =>
    if w.promise = some p then .job (.completion (w.twin.getD (.promise p)))
    else .job (.completion (.promise p))
  | .job (.completion (.scripted ack)) => .job (.completion (.scripted ack))
  | .job (.completion (.foreign i handle callback)) => .job (.completion (.foreign i handle callback))
  | .job (.resume k outcome terminal) => .job (.resume k outcome terminal)
  | .job (.arrival msg) => .job (.arrival msg)
  | .job (.initExtension properties) => .job (.initExtension properties)
  | .job .startExtension => .job .startExtension
  | .job (.phase callback) => .job (.phase callback)
  | .mark => .mark

/-- At least so many continuations and promises are there. -/
def above (cells promises : Nat) : Watch :=
  { w with
    cells := max w.cells cells
    promises := max w.promises promises
    inRange := fun p hp => Nat.lt_of_lt_of_le (w.inRange p hp) (Nat.le_max_left _ _) }

/-- A handler that is no keeper of the promise, and whose own promise is there. -/
def Admits (handler : Handler) : Prop :=
  ∀ p, handler = .promise p → p < w.promises ∧ w.promise ≠ some p

end Watch

/-- What is watched of an application is as it should be, with so many endings in hand that neither
wait nor are queued. Nobody but the continuation keeps the promise, its requests are those of a
tester that wants no intermediate results, and a promise is lost by a worker that was shut down
only. -/
structure Watched (w : Watch) (hand : Nat) (a : App) : Prop extends Anchored a where
  cell : ∀ k c, w.cell = some (k, c) → a.cells[k]? = some c
  cells : w.cells ≤ a.cells.size
  promises : w.promises ≤ a.promises.size
  sole : ∀ (i : Nat) (c : Continuation Handler) (p : Nat), w.promise = some p →
    a.cells[i]? = some c → c.slot = .waiting (.promise p) → w.number = some i
  asked : ∀ e ∈ a.router.table.entries, w.number = some e.2.continuation →
    e.2.executor = .tester ∧ e.2.streaming = false
  kept : ∀ side, ∀ task ∈ (a.worker side).queue, w.keeps task = true →
    side = .tester ∧ w.Last task
  fits : w.fits (hand + w.owed a) (w.held a)
  refused : w.held a = some .lost → a.testerWorker.accepting = false

/-- An application without continuations, promises, futures and queues. -/
def stripped (a : App) : App :=
  { a with
    cells := #[]
    promises := #[]
    futures := []
    testerWorker := a.testerWorker.emptied
    engineWorker := a.engineWorker.emptied }

/-- Two applications beside each other: what is watched of the first is as it should be, and the
second is the same but for promises, futures, and whoever listens at the continuation that is
watched. -/
structure Beside (w : Watch) (hand : Nat) (a b : App) : Prop where
  watched : Watched w hand a
  same : a.stripped = b.stripped
  queues : ∀ side, ((a.worker side).queue.map w.replaced).map maskedTask =
    (b.worker side).queue.map maskedTask
  cells : ∀ i : Nat, a.cells[i]?.map (·.map (w.veil i)) = b.cells[i]?.map (·.map (w.veil i))

/-- A step that neither looks at anything that is watched nor changes anything of it. -/
structure Blind {α : Type} (f : App → α × App) : Prop where
  router : ∀ a, (f a).2.router = a.router
  worker : ∀ a side, (f a).2.worker side = a.worker side
  cells : ∀ a, (f a).2.cells = a.cells
  promises : ∀ a, (f a).2.promises = a.promises
  answer : ∀ a, (f a.stripped).1 = (f a).1
  stripped : ∀ a, (f a.stripped).2.stripped = (f a).2.stripped

variable {w : Watch} {hand : Nat} {a b : App}

section Masks

theorem side_masked (handler : Handler) : handler.masked.side = handler.side := by
  cases handler with
  | promise | scripted | foreign | silent => rfl

/-- Handlers are the same without the numbers of their promises, so they are the same or both keep
promises. -/
theorem eq_or_promise_of_masked {handler handler' : Handler}
    (h : handler.masked = handler'.masked) :
    handler = handler' ∨ ∃ i j, handler = .promise i ∧ handler' = .promise j := by
  cases handler with
  | promise i =>
    cases handler' with
    | promise j => exact .inr ⟨i, j, rfl, rfl⟩
    | scripted | foreign | silent => cases h
  | scripted | foreign | silent =>
    cases handler' with
    | promise j => cases h
    | scripted | foreign | silent => exact .inl h

theorem completion_eq_or_promise_of_masked {c c' : Completion} (h : c.masked = c'.masked) :
    c = c' ∨ ∃ i j, c = .promise i ∧ c' = .promise j := by
  cases c with
  | promise i =>
    cases c' with
    | promise j => exact .inr ⟨i, j, rfl, rfl⟩
    | scripted | foreign => cases h
  | scripted | foreign =>
    cases c' with
    | promise j => cases h
    | scripted | foreign => exact .inl h

theorem job_eq_or_completion_of_masked {job job' : Job} (h : job.masked = job'.masked) :
    job = job' ∨ ∃ c c', job = .completion c ∧ job' = .completion c' ∧ c.masked = c'.masked := by
  cases job with
  | completion c =>
    cases job' with
    | completion c' => exact .inr ⟨c, c', rfl, rfl, Job.completion.inj h⟩
    | resume | arrival | initExtension | startExtension | phase => cases h
  | resume | arrival | initExtension | startExtension | phase =>
    cases job' with
    | completion c' => cases h
    | resume | arrival | initExtension | startExtension | phase => exact .inl h

theorem eq_resume_of_masked {task : Task Job} {k : Nat} {outcome : Outcome} {terminal : Bool}
    (h : maskedTask task = .job (.resume k outcome terminal)) :
    task = .job (.resume k outcome terminal) := by
  rcases task with job | _
  · have hmasked : job.masked = (Job.resume k outcome terminal).masked := Task.job.inj h
    rcases job_eq_or_completion_of_masked hmasked with rfl | ⟨_, _, -, hne, -⟩
    · rfl
    · cases hne
  · cases h

theorem eq_completion_of_masked {task : Task Job} {c : Completion}
    (h : maskedTask task = maskedTask (.job (.completion c))) (hc : ∀ p, c ≠ .promise p) :
    task = .job (.completion c) := by
  rcases task with job | _
  · cases job with
    | completion c' =>
      have hmasked : c'.masked = c.masked := Job.completion.inj (Task.job.inj h)
      rcases completion_eq_or_promise_of_masked hmasked with rfl | ⟨_, p, -, hp⟩
      · rfl
      · exact absurd hp (hc p)
    | resume | arrival | initExtension | startExtension | phase => cases h
  · cases h

end Masks

section Frames

/-- Nothing that is watched has changed. -/
theorem Watched.congr (ha : Watched w hand a) {a' : App} (hrouter : a'.router = a.router)
    (hworker : ∀ side, a'.worker side = a.worker side) (hcells : a'.cells = a.cells)
    (hpromises : a'.promises = a.promises) : Watched w hand a' := by
  have hqueue : a'.testerWorker = a.testerWorker := hworker .tester
  have howed : w.owed a' = w.owed a := by rw [Watch.owed, hrouter, hqueue, Watch.owed]
  have hheld : w.held a' = w.held a := by rw [Watch.held, hpromises, Watch.held]
  constructor
  · constructor
    · rw [hrouter]
      exact ha.sharded
    · rw [hrouter, hcells]
      exact ha.entries
    · rw [hcells, hpromises]
      intro side
      rw [hworker]
      exact ha.tasks side
    · rw [hcells, hpromises]
      exact ha.handlers
  · rw [hcells]
    exact ha.cell
  · rw [hcells]
    exact ha.cells
  · rw [hpromises]
    exact ha.promises
  · rw [hcells]
    exact ha.sole
  · rw [hrouter]
    exact ha.asked
  · intro side
    rw [hworker]
    exact ha.kept side
  · rw [howed, hheld]
    exact ha.fits
  · rw [hheld, hqueue]
    exact ha.refused

theorem Beside.router (h : Beside w hand a b) : a.router = b.router :=
  (congrArg App.router h.same : a.stripped.router = b.stripped.router)

/-- All workers are the same but for what is queued. -/
theorem Beside.worker (h : Beside w hand a b) (side : Side) :
    (a.worker side).emptied = (b.worker side).emptied := by
  cases side with
  | tester =>
    exact (congrArg App.testerWorker h.same : a.stripped.testerWorker = b.stripped.testerWorker)
  | engine =>
    exact (congrArg App.engineWorker h.same : a.stripped.engineWorker = b.stripped.engineWorker)

theorem Beside.accepting (h : Beside w hand a b) (side : Side) :
    (a.worker side).accepting = (b.worker side).accepting :=
  (congrArg Worker.accepting (h.worker side) :
    (a.worker side).emptied.accepting = (b.worker side).emptied.accepting)

theorem Beside.name (h : Beside w hand a b) (side : Side) :
    (a.worker side).name = (b.worker side).name :=
  (congrArg Worker.name (h.worker side) :
    (a.worker side).emptied.name = (b.worker side).emptied.name)

theorem Beside.size (h : Beside w hand a b) : a.cells.size = b.cells.size := by
  have hnone (i : Nat) : a.cells.size ≤ i ↔ b.cells.size ≤ i := by
    rw [← Array.getElem?_eq_none_iff, ← Array.getElem?_eq_none_iff,
      ← Option.map_eq_none_iff (f := (·.map (w.veil i))), h.cells i, Option.map_eq_none_iff]
  exact Nat.le_antisymm ((hnone _).mpr (Nat.le_refl _)) ((hnone _).mp (Nat.le_refl _))

/-- What is done blindly is done alike. -/
theorem Beside.blind {α : Type} {f : App → α × App} (h : Beside w hand a b) (hf : Blind f) :
    (f a).1 = (f b).1 ∧ Beside w hand (f a).2 (f b).2 := by
  constructor
  · rw [← hf.answer a, h.same, hf.answer b]
  · constructor
    · exact h.watched.congr (hf.router a) (hf.worker a) (hf.cells a) (hf.promises a)
    · rw [← hf.stripped a, h.same, hf.stripped b]
    · intro side
      rw [hf.worker, hf.worker]
      exact h.queues side
    · intro i
      rw [hf.cells, hf.cells]
      exact h.cells i

theorem Watched.above (ha : Watched w hand a) {cells promises : Nat}
    (hcells : cells ≤ a.cells.size) (hpromises : promises ≤ a.promises.size) :
    Watched (w.above cells promises) hand a :=
  { ha with
    cells := Nat.max_le.mpr ⟨ha.cells, hcells⟩
    promises := Nat.max_le.mpr ⟨ha.promises, hpromises⟩ }

theorem Watched.of_above {cells promises : Nat} (ha : Watched (w.above cells promises) hand a) :
    Watched w hand a :=
  { ha with
    cells := Nat.le_trans (Nat.le_max_left _ _) ha.cells
    promises := Nat.le_trans (Nat.le_max_left _ _) ha.promises }

theorem Beside.above (h : Beside w hand a b) {cells promises : Nat}
    (hcells : cells ≤ a.cells.size) (hpromises : promises ≤ a.promises.size) :
    Beside (w.above cells promises) hand a b :=
  { h with watched := h.watched.above hcells hpromises }

theorem Beside.of_above {cells promises : Nat} (h : Beside (w.above cells promises) hand a b) :
    Beside w hand a b :=
  { h with watched := h.watched.of_above }

/-- A task that does not keep the promise is not replaced. -/
theorem Watch.replaced_eq {task : Task Job} (h : w.keeps task = false ∨ w.twin = none) :
    w.replaced task = task := by
  rcases task with job | _
  · cases job with
    | completion c =>
      cases c with
      | promise p =>
        rw [Watch.replaced]
        split
        · next hp =>
          rcases h with hkeeps | htwin
          · exact absurd hp (of_decide_eq_false hkeeps)
          · rw [htwin, Option.getD_none]
        · rfl
      | scripted | foreign => rfl
    | resume | arrival | initExtension | startExtension | phase => rfl
  · rfl

/-- An application beside itself. -/
theorem Watched.beside (ha : Watched w hand a) (htwin : w.twin = none) : Beside w hand a a where
  watched := ha
  same := rfl
  queues side := by
    have hreplaced : w.replaced = id := funext fun _ => w.replaced_eq (.inr htwin)
    rw [hreplaced, List.map_id]
  cells _ := rfl

end Frames

section Workers

@[simp] theorem promises_setWorker (a : App) (side : Side) (v : Worker Job) :
    (a.setWorker side v).promises = a.promises := by
  cases side
  · rfl
  · rfl

theorem setWorker_self (a : App) (side : Side) : a.setWorker side (a.worker side) = a := by
  cases side
  · rfl
  · rfl

/-- What refers to something that is there does so still when there is more. -/
theorem AnchoredTask.mono {cells promises cells' promises' : Nat} {task : Task Job}
    (h : AnchoredTask cells promises task) (hcells : cells ≤ cells')
    (hpromises : promises ≤ promises') : AnchoredTask cells' promises' task := by
  rcases task with job | _
  · cases job with
    | resume k outcome terminal => exact Nat.lt_of_lt_of_le h hcells
    | completion c =>
      cases c with
      | promise p => exact Nat.lt_of_lt_of_le h hpromises
      | scripted ack => trivial
      | foreign i handle callback => trivial
    | arrival | initExtension | startExtension | phase => trivial
  · trivial

/-- Only one worker has changed, and with it what is queued or in hand. -/
theorem Watched.setWorker {hand' : Nat} (ha : Watched w hand a) (side : Side) {v : Worker Job}
    (htasks : ∀ task ∈ v.queue, AnchoredTask a.cells.size a.promises.size task)
    (hkept : ∀ task ∈ v.queue, w.keeps task = true → side = .tester ∧ w.Last task)
    (howed : hand' + v.queue.countP w.keeps = hand + (a.worker side).queue.countP w.keeps)
    (haccepting : (a.worker side).accepting = false → v.accepting = false) :
    Watched w hand' (a.setWorker side v) := by
  have hheld : w.held (a.setWorker side v) = w.held a := by
    rw [Watch.held, promises_setWorker, Watch.held]
  constructor
  · constructor
    · rw [router_setWorker]
      exact ha.sharded
    · rw [router_setWorker, cells_setWorker]
      exact ha.entries
    · intro other
      rw [worker_setWorker, cells_setWorker, promises_setWorker]
      split
      · exact htasks
      · exact ha.tasks other
    · rw [cells_setWorker, promises_setWorker]
      exact ha.handlers
  · rw [cells_setWorker]
    exact ha.cell
  · rw [cells_setWorker]
    exact ha.cells
  · rw [promises_setWorker]
    exact ha.promises
  · rw [cells_setWorker]
    exact ha.sole
  · rw [router_setWorker]
    exact ha.asked
  · intro other
    rw [worker_setWorker]
    split
    · next heq => exact heq ▸ hkept
    · exact ha.kept other
  · have hsum : hand' + w.owed (a.setWorker side v) = hand + w.owed a := by
      rw [Watch.owed, Watch.owed, router_setWorker]
      cases side with
      | tester =>
        change hand' + (_ + v.queue.countP w.keeps) = hand + (_ + a.testerWorker.queue.countP _)
        change hand' + v.queue.countP w.keeps = hand + a.testerWorker.queue.countP w.keeps at howed
        omega
      | engine =>
        -- nothing that is watched is for the engine
        have hnone (queue : List (Task Job))
            (hqueue : ∀ task ∈ queue, w.keeps task = true → Side.engine = .tester ∧ w.Last task) :
            queue.countP w.keeps = 0 :=
          List.countP_eq_zero.mpr fun task htask hkeeps => nomatch (hqueue task htask hkeeps).1
        rw [hnone _ hkept, hnone _ (ha.kept .engine), Nat.add_zero, Nat.add_zero] at howed
        rw [howed]
        rfl
    change w.fits (hand' + w.owed (a.setWorker side v)) (w.held (a.setWorker side v))
    rw [hsum, hheld]
    exact ha.fits
  · intro hlost
    have hshut := ha.refused (hheld ▸ hlost)
    cases side with
    | tester => exact haccepting hshut
    | engine => exact hshut

/-- The same is done to a worker of both. -/
theorem Beside.setWorker {hand' : Nat} (h : Beside w hand a b) (side : Side) {v v' : Worker Job}
    (ha : Watched w hand' (a.setWorker side v))
    (hsame : v.emptied = v'.emptied)
    (hqueue : (v.queue.map w.replaced).map maskedTask = v'.queue.map maskedTask) :
    Beside w hand' (a.setWorker side v) (b.setWorker side v') where
  watched := ha
  same := by
    have hstripped (c : App) (v : Worker Job) :
        (c.setWorker side v).stripped = c.stripped.setWorker side v.emptied := by
      cases side
      · rfl
      · rfl
    rw [hstripped, hstripped, h.same, hsame]
  queues other := by
    rw [worker_setWorker, worker_setWorker]
    split
    · exact hqueue
    · exact h.queues other
  cells := by
    rw [cells_setWorker, cells_setWorker]
    exact h.cells

/-- Both workers take a task: one that is in hand, or one that has nothing to do with what is
watched. -/
theorem Beside.enqueued {side : Side} {task task' : Task Job}
    (h : Beside w (hand + if w.keeps task = true then 1 else 0) a b)
    (halike : maskedTask (w.replaced task) = maskedTask task')
    (hanchored : AnchoredTask w.cells w.promises task)
    (hkept : w.keeps task = true → side = .tester ∧ w.Last task) :
    Beside w hand (a.enqueued side task) (b.enqueued side task') := by
  have hwatched := h.watched
  have ha : Watched w hand (a.enqueued side task) := by
    refine hwatched.setWorker side (fun other hother => ?_) (fun other hother hkeeps => ?_) ?_ ?_
    · rcases List.mem_append.mp hother with hother | hother
      · exact hwatched.tasks side other hother
      · rw [List.mem_singleton.mp hother]
        exact hanchored.mono hwatched.cells hwatched.promises
    · rcases List.mem_append.mp hother with hother | hother
      · exact hwatched.kept side other hother hkeeps
      · rw [List.mem_singleton.mp hother] at hkeeps ⊢
        exact hkept hkeeps
    · rw [List.countP_append, List.countP_singleton]
      omega
    · exact fun hshut => hshut
  refine h.setWorker side ha ?_ ?_
  · exact h.worker side
  · change List.map maskedTask (((a.worker side).queue ++ [task]).map w.replaced) =
      ((b.worker side).queue ++ [task']).map maskedTask
    rw [List.map_append, List.map_append, List.map_append, h.queues side, List.map_singleton,
      List.map_singleton, List.map_singleton, halike]

/-- Both workers are asked to take a task that has nothing to do with what is watched. -/
theorem Beside.accept (h : Beside w hand a b) (side : Side) {task task' : Task Job}
    (halike : maskedTask (w.replaced task) = maskedTask task')
    (hanchored : AnchoredTask w.cells w.promises task) (hkeeps : w.keeps task = false) :
    ((a.worker side).accept task).1 = ((b.worker side).accept task').1 ∧
      Beside w hand (a.setWorker side ((a.worker side).accept task).2)
        (b.setWorker side ((b.worker side).accept task').2) := by
  cases haccepting : (a.worker side).accepting with
  | true =>
    rw [Worker.accept_of_accepting haccepting,
      Worker.accept_of_accepting (h.accepting side ▸ haccepting)]
    refine ⟨rfl, Beside.enqueued ?_ halike hanchored fun hkeeps' => ?_⟩
    · rw [hkeeps]
      exact h
    · rw [hkeeps] at hkeeps'
      cases hkeeps'
  | false =>
    rw [Worker.accept_of_not_accepting haccepting,
      Worker.accept_of_not_accepting (h.accepting side ▸ haccepting), setWorker_self,
      setWorker_self, h.name side]
    exact ⟨rfl, h⟩

theorem emptied_next (v : Worker Job) : v.next.2.emptied = v.emptied := by
  rw [Worker.next]
  split
  · rfl
  · rfl

/-- Both workers take their oldest task, which is in hand then if it has to do with what is
watched. -/
theorem Beside.popped {side : Side} {task : Task Job} {tasks : List (Task Job)}
    (h : Beside w hand a b) (hqueue : (a.worker side).queue = task :: tasks) :
    ∃ task', (b.worker side).next.1 = some task' ∧
      maskedTask (w.replaced task) = maskedTask task' ∧
      Beside w (hand + if w.keeps task = true then 1 else 0) (a.popped side) (b.popped side) := by
  have hwatched := h.watched
  have hqueues := h.queues side
  rw [hqueue, List.map_cons, List.map_cons] at hqueues
  obtain ⟨task', tasks', hqueue', halike, htasks⟩ := List.map_eq_cons_iff.mp hqueues.symm
  have hnext : (a.worker side).next.2.queue = tasks := by rw [queue_next, hqueue, List.tail_cons]
  have hnext' : (b.worker side).next.2.queue = tasks' := by rw [queue_next, hqueue', List.tail_cons]
  have hmem (other : Task Job) (hother : other ∈ (a.worker side).next.2.queue) :
      other ∈ (a.worker side).queue := by
    rw [hqueue]
    exact List.mem_cons_of_mem task (hnext ▸ hother)
  refine ⟨task', by rw [Worker.next, hqueue'], halike.symm, h.setWorker side ?_ ?_ ?_⟩
  · refine hwatched.setWorker side (fun other hother => ?_) (fun other hother => ?_) ?_ ?_
    · exact hwatched.tasks side other (hmem other hother)
    · exact hwatched.kept side other (hmem other hother)
    · rw [hnext, hqueue, List.countP_cons]
      omega
    · rw [accepting_next]
      exact fun hshut => hshut
  · rw [emptied_next, emptied_next, h.worker side]
  · rw [hnext, hnext']
    exact htasks.symm

/-- A worker goes on in both applications, with the same queue. -/
theorem Beside.keepQueue (h : Beside w hand a b) (side : Side) {f : Worker Job → Worker Job}
    (hqueue : ∀ v, (f v).queue = v.queue)
    (haccepting : ∀ v : Worker Job, v.accepting = false → (f v).accepting = false)
    (hemptied : ∀ v, (f v).emptied = (f v.emptied).emptied) :
    Beside w hand (a.setWorker side (f (a.worker side)))
      (b.setWorker side (f (b.worker side))) := by
  have hwatched := h.watched
  have ha : Watched w hand (a.setWorker side (f (a.worker side))) := by
    refine hwatched.setWorker side ?_ ?_ ?_ (haccepting _)
    · rw [hqueue]
      exact hwatched.tasks side
    · rw [hqueue]
      exact hwatched.kept side
    · rw [hqueue]
  refine h.setWorker side ha ?_ ?_
  · rw [hemptied, h.worker side, ← hemptied]
  · rw [hqueue, hqueue]
    exact h.queues side

theorem Beside.counted (h : Beside w hand a b) (side : Side) (ended : Except Panic Unit) :
    Beside w hand (a.counted side ended) (b.counted side ended) := by
  refine h.keepQueue side (Worker.queue_count ended) (fun v hshut => ?_) fun v => ?_
  · rw [Worker.accepting_count]
    exact hshut
  · cases ended
    · rfl
    · rfl

theorem Beside.shutDown (h : Beside w hand a b) (side : Side) :
    Beside w hand (a.setWorker side (a.worker side).shutDown)
      (b.setWorker side (b.worker side).shutDown) :=
  h.keepQueue side (fun _ => rfl) (fun _ _ => rfl) fun _ => rfl

end Workers

end App
end Switchboard
