import Switchboard.Proofs.App.Teardown
import Switchboard.Proofs.Foreign.Mimicry
/-!
# Calls of the router

A call of the router runs nobody's code. It hands deliveries and messages to the queues of workers,
from which they are taken later.
-/
namespace Switchboard.App

/-- What happens between two applications while no callback begins or goes on: nothing is shown or
counted, no handler is taken out or put back, no task is taken, and the pool stays as it is. Tasks
may be queued. -/
structure Undisturbed (a a' : App) : Prop where
  pool : a'.pool = a.pool
  cells : a'.cells = a.cells
  counters : a'.counters = a.counters
  testerEvents : a'.testerEvents = a.testerEvents
  engineEvents : a'.engineEvents = a.engineEvents
  executed : ∀ side, (a'.worker side).executed = (a.worker side).executed
  queue : ∀ side, (a.worker side).queue <+: (a'.worker side).queue

/-- A program during which no callback begins or goes on, and which leaves the pool alone. -/
def Undisturbs (α : Type) (p : Program α) : Prop := ∀ a, Undisturbed a (p.run a).2

section Undisturbed

variable {α : Type} {a a' a'' : App}

theorem Undisturbed.refl (a : App) : Undisturbed a a :=
  ⟨rfl, rfl, rfl, rfl, rfl, fun _ => rfl, fun _ => List.prefix_refl _⟩

theorem Undisturbed.trans (h : Undisturbed a a') (h' : Undisturbed a' a'') : Undisturbed a a'' where
  pool := h'.pool.trans h.pool
  cells := h'.cells.trans h.cells
  counters := h'.counters.trans h.counters
  testerEvents := h'.testerEvents.trans h.testerEvents
  engineEvents := h'.engineEvents.trans h.engineEvents
  executed side := (h'.executed side).trans (h.executed side)
  queue side := (h.queue side).trans (h'.queue side)

theorem composes_undisturbs : Composes Undisturbs where
  pure _ a := .refl a
  bind hp hf a := (hp a).trans (hf _ _)

theorem undisturbs_router_step (f : Router Nat Side Side → α × Router Nat Side Side) :
    Undisturbs α (Program.router.step f) := fun _ =>
  ⟨rfl, rfl, rfl, rfl, rfl, fun _ => rfl, fun _ => List.prefix_refl _⟩

theorem undisturbs_lifecycle_step (f : Lifecycle → α × Lifecycle) :
    Undisturbs α (Program.lifecycle.step f) := fun _ =>
  ⟨rfl, rfl, rfl, rfl, rfl, fun _ => rfl, fun _ => List.prefix_refl _⟩

/-- A task that is queued does not run yet. -/
theorem undisturbs_accept (side : Side) (task : Task Job) :
    Undisturbs _ ((Program.worker side).step (·.accept task)) := by
  intro a
  have haccept (w : Worker Job) :
      (w.accept task).2.executed = w.executed ∧ w.queue <+: (w.accept task).2.queue := by
    rw [Worker.accept]
    split
    · exact ⟨rfl, List.prefix_append _ _⟩
    · exact ⟨rfl, List.prefix_refl _⟩
  have hworker (other : Side) :
      ((((Program.worker side).step (·.accept task)).run a).2.worker other).executed =
          (a.worker other).executed ∧
        (a.worker other).queue <+:
          ((((Program.worker side).step (·.accept task)).run a).2.worker other).queue := by
    change ((a.setWorker side ((a.worker side).accept task).2).worker other).executed = _ ∧
      _ <+: ((a.setWorker side ((a.worker side).accept task).2).worker other).queue
    rw [worker_setWorker]
    split
    · subst other
      exact haccept (a.worker side)
    · exact ⟨rfl, List.prefix_refl _⟩
  cases side with
  | tester =>
    exact ⟨rfl, rfl, rfl, rfl, rfl, fun other => (hworker other).1, fun other => (hworker other).2⟩
  | engine =>
    exact ⟨rfl, rfl, rfl, rfl, rfl, fun other => (hworker other).1, fun other => (hworker other).2⟩

/-- A delivery is queued; one that is refused is lost, without a call of its handler. -/
theorem undisturbs_submit (d : Delivery Nat Side) : Undisturbs _ (Program.submit d) := by
  apply composes_undisturbs.bind (undisturbs_accept d.executor _)
  intro answer
  cases answer with
  | ok _ => exact composes_undisturbs.pure _
  | error e =>
    have hcell : Undisturbs _ (Program.cell d.continuation).get := by
      intro a
      refine ⟨rfl, ?_, rfl, rfl, rfl, fun _ => rfl, fun _ => List.prefix_refl _⟩
      exact setIfInBounds_getD a.cells d.continuation _
    apply composes_undisturbs.bind hcell
    intro c
    split
    · exact fun a => ⟨rfl, rfl, rfl, rfl, rfl, fun _ => rfl, fun _ => List.prefix_refl _⟩
    · exact composes_undisturbs.pure _

theorem undisturbs_onTable
    (op : PendingTable Nat Side → α × List (Delivery Nat Side) × PendingTable Nat Side) :
    Undisturbs _ (Program.fabric.onTable op) := by
  apply composes_undisturbs.bind (undisturbs_router_step (·.onTable op))
  rintro ⟨answer, deliveries⟩
  apply composes_undisturbs.bind (composes_undisturbs.forM undisturbs_submit deliveries)
  exact fun _ => composes_undisturbs.pure answer

theorem fits_undisturbs : Composes.Fits Undisturbs Program.fabric where
  get := undisturbs_router_step _
  complete id result := undisturbs_onTable (·.complete id result)
  fail id fault := undisturbs_onTable (·.fail id fault)
  forward side msg := by
    change Undisturbs _ (Program.forward side msg)
    unfold Program.forward
    split
    · exact composes_undisturbs.pure _
    · exact undisturbs_accept side _

end Undisturbed

/-! ## Calls of the router -/

/-- What a side calls the router for. -/
inductive RouterCall where
  | command (continuation : Nat) (cmd : Cmd) (streaming : Bool)
  | message (msg : Message)
  | answer (result : CmdResult)

namespace RouterCall

/-- What the router answers. -/
def Answer : RouterCall → Type
  | command .. => Except Fault RequestId
  | message _ | answer _ => Except Fault Unit

/-- What the router does, through the outlet of a side of an application. -/
def body (a : App) (side : Side) : (call : RouterCall) → Program call.Answer
  | command continuation cmd streaming =>
    (a.outlet side).sendCmd Program.fabric cmd continuation streaming
  | message msg => (a.outlet side).send Program.fabric msg
  | answer result => Program.fabric.returnResult result

/-- The router runs nobody's code during a call. -/
theorem undisturbs (a : App) (side : Side) (call : RouterCall) :
    Undisturbs _ (call.body a side) := by
  cases call with
  | command continuation cmd streaming =>
    exact composes_undisturbs.sendCmd fits_undisturbs _ cmd (undisturbs_router_step _)
  | message msg => exact composes_undisturbs.send fits_undisturbs.toReaches _ msg
  | answer result => exact composes_undisturbs.returnResult fits_undisturbs.complete result

end RouterCall

theorem undisturbs_abort (reason : String) : Undisturbs _ (Program.abort reason) := by
  apply composes_undisturbs.bind (undisturbs_router_step _)
  exact fun _ => undisturbs_onTable (·.cancelAll reason)

theorem undisturbs_stop : Undisturbs _ Operation.stop.perform := by
  apply composes_undisturbs.beginStop (fun f => undisturbs_lifecycle_step f)
  apply composes_undisturbs.bind
  · apply composes_undisturbs.bind (undisturbs_router_step _)
    exact fun _ => undisturbs_onTable (·.cancelAll "test stopped")
  · exact fun _ => composes_undisturbs.pure _

end Switchboard.App
