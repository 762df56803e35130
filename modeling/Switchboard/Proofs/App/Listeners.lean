import Switchboard.App.Callbacks
/-!
# Typed listeners in place of foreign ones

A foreign host listens by callbacks, or not at all. A tester of the program's own would have a
handler there that shows what it hears under a tag. An application with such handlers in place of
all callbacks has no boundaries and knows of no host.
-/
namespace Switchboard

section Maps

variable {h k J K : Type}

/-- The slot with its handler replaced. -/
def HandlerSlot.map (f : h → k) : HandlerSlot h → HandlerSlot k
  | waiting handler => .waiting (f handler)
  | running => .running
  | released => .released

/-- The continuation with its handler replaced. -/
def Continuation.map (f : h → k) (c : Continuation h) : Continuation k :=
  { slot := c.slot.map f, finished := c.finished, history := c.history }

theorem Continuation.takeOut_map (f : h → k) (outcome : Outcome) (terminal : Bool)
    (c : Continuation h) :
    (c.map f).takeOut outcome terminal =
      ((c.takeOut outcome terminal).1.map fun called => (f called.1, called.2),
        (c.takeOut outcome terminal).2.map f) := by
  obtain ⟨slot, finished, history⟩ := c
  cases slot with
  | waiting handler => rfl
  | running => rfl
  | released => rfl

theorem Continuation.putBack_map (f : h → k) (terminal : Bool) (handler : h)
    (c : Continuation h) :
    (c.map f).putBack terminal (f handler) = (c.putBack terminal handler).map f := by
  cases terminal with
  | true => rfl
  | false => rfl

/-- The task with its job replaced. -/
def Task.map (f : J → K) : Task J → Task K
  | job j => .job (f j)
  | mark => .mark

/-- The worker with its jobs replaced. -/
def Worker.map (f : J → K) (w : Worker J) : Worker K :=
  { name := w.name, queue := w.queue.map (Task.map f), accepting := w.accepting
    executed := w.executed, panicked := w.panicked }

theorem Worker.accept_map (f : J → K) (task : Task J) (w : Worker J) :
    (w.map f).accept (task.map f) = ((w.accept task).1, (w.accept task).2.map f) := by
  cases haccepting : w.accepting with
  | true =>
    rw [accept_of_accepting haccepting, accept_of_accepting (w := w.map f) haccepting]
    simp [map]
  | false =>
    rw [accept_of_not_accepting haccepting, accept_of_not_accepting (w := w.map f) haccepting]
    rfl

theorem Worker.next_map (f : J → K) (w : Worker J) :
    (w.map f).next = (w.next.1.map (Task.map f), w.next.2.map f) := by
  obtain ⟨name, queue, accepting, executed, panicked⟩ := w
  cases queue with
  | nil => rfl
  | cons task tasks => rfl

/-- Only whether a task panicked is counted, not how. -/
theorem Worker.count_map (f : J → K) {ended ended' : Except Panic Unit}
    (h : ended'.isOk = ended.isOk) (w : Worker J) :
    (w.map f).count ended' = (w.count ended).map f := by
  cases ended with
  | ok _ =>
    cases ended' with
    | ok _ => rfl
    | error panic => cases h
  | error panic =>
    cases ended' with
    | ok _ => cases h
    | error panic => rfl

end Maps

namespace App

/-- What a handler goes on to do in place of a callback that panics. -/
def Callback.followUp (c : Callback) : List Action := if c.panics then [.panic] else []

/-- The completion that shows what a callback would show. -/
def Callback.ack (c : Callback) : Ack := .mk c.tag c.followUp

/-- A handler in place of a callback; nobody shows what it hears under a tag of its own. -/
def Handler.inPlaceOf (nobody : String) : Option (Handle × Callback) → Handler
  | some (_, callback) => .scripted .tester callback.tag callback.followUp [] none
  | none => .scripted .tester nobody [] [] none

/-- A handler of the program's own in place of a foreign one. -/
def Handler.typed (nobody : String) : Handler → Handler
  | foreign _ listener => .inPlaceOf nobody listener
  | scripted side tag followUp panicOn current => .scripted side tag followUp panicOn current
  | promise i => .promise i
  | silent => .silent

/-- A completion of the program's own in place of a foreign one. -/
def Completion.typed : Completion → Completion
  | foreign _ _ callback => .scripted callback.ack
  | scripted ack => .scripted ack
  | promise i => .promise i

/-- A job of the program's own in place of a foreign one. -/
def Job.typed : Job → Job
  | completion c => .completion c.typed
  | resume cell outcome terminal => .resume cell outcome terminal
  | arrival msg => .arrival msg
  | initExtension properties => .initExtension properties
  | startExtension => .startExtension
  | phase callback => .phase callback

/-- An application with typed listeners in place of all foreign ones, after other events were shown
on the tester's side. -/
def typed (nobody : String) (a : App) (shown : List Event) : App :=
  { a with
    cells := a.cells.map (·.map (·.typed nobody))
    testerWorker := a.testerWorker.map Job.typed
    engineWorker := a.engineWorker.map Job.typed
    boundaries := #[]
    boundary := none
    testerEvents := shown }

/-- Somebody on a boundary waits for the outcome of a command. -/
def Hears (a : App) (k i : Nat) (listener : Option (Handle × Callback)) : Prop :=
  ∃ c, a.cells[k]? = some c ∧ c.slot = .waiting (.foreign i listener)

section Typed

variable (nobody : String) (a : App) (shown : List Event)

theorem side_inPlaceOf (listener : Option (Handle × Callback)) :
    (Handler.inPlaceOf nobody listener).side = .tester := by
  rcases listener with _ | ⟨handle, callback⟩
  · rfl
  · rfl

@[simp] theorem side_typed (handler : Handler) : (handler.typed nobody).side = handler.side := by
  cases handler with
  | foreign i listener => exact side_inPlaceOf nobody listener
  | scripted side tag followUp panicOn current => rfl
  | promise i => rfl
  | silent => rfl

theorem ne_foreign_of_typed {handler : Handler} (h : handler.typed nobody = handler) (i : Nat)
    (listener : Option (Handle × Callback)) : handler ≠ .foreign i listener := by
  rintro rfl
  rcases listener with _ | ⟨handle, callback⟩
  · cases h
  · cases h

theorem worker_typed (side : Side) :
    (a.typed nobody shown).worker side = (a.worker side).map Job.typed := by
  cases side
  · rfl
  · rfl

theorem typed_setWorker (side : Side) (w : Worker Job) :
    (a.setWorker side w).typed nobody shown =
      (a.typed nobody shown).setWorker side (w.map Job.typed) := by
  cases side
  · rfl
  · rfl

theorem getD_cells_typed (k : Nat) :
    (a.typed nobody shown).cells.getD k { slot := .released } =
      (a.cells.getD k { slot := .released }).map (·.typed nobody) := by
  simp only [typed, Array.getD_eq_getD_getElem?, Array.getElem?_map]
  cases a.cells[k]? with
  | none => rfl
  | some c => rfl

end Typed

end App
end Switchboard
