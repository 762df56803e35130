import Switchboard.App.Future
import Switchboard.Proofs.App.Listeners
import Switchboard.Proofs.App.Sends
/-!
# What callbacks are made of

All that a callback, a handler or a foreign host can do to an application is made of a few
operations: commands and messages are sent, results returned, completions queued, the run is
stopped, phases are acknowledged. Besides, notes are taken that nothing else depends on. So what is
true of every operation, and carries over from the parts of a program to the whole, is true of
everything that callbacks do.

What is done without a host does not look at who listens. It mimics itself in an application with
typed listeners in place of foreign ones.
-/
namespace Switchboard.App

/-- What anybody may do to an application at any time. -/
inductive Operation where
  | sendCmd (handler : Handler) (cmd : Cmd) (streaming : Bool)
  | send (p : Outlet Side) (msg : Message)
  | returnResult (result : CmdResult)
  | complete (completion : Completion)
  /-- closes the router, cancels everything and announces that the run is stopping -/
  | stop
  /-- puts a mark into the tester's queue -/
  | await
  | acknowledge (callback : PhaseCallback)

namespace Operation

/-- What an operation answers. -/
def Answer : Operation → Type
  | sendCmd .. => Except Fault RequestId
  | send .. | returnResult _ | complete _ | await | acknowledge _ => Except Fault Unit
  | stop => Except Empty (Except Fault Bool)

/-- Performs an operation. -/
def perform : (op : Operation) → Program op.Answer
  | sendCmd handler cmd streaming => Program.sendCmd handler cmd streaming
  | send p msg => p.send Program.fabric msg
  | returnResult result => Program.fabric.returnResult result
  | complete completion => (Program.worker .tester).step (·.execute (.completion completion))
  | stop => Lifecycle.beginStop Program.lifecycle do
    let _ ← Program.tearDown "test stopped"
    return .ok ()
  | await => (Program.worker .tester).step (·.flush false)
  | acknowledge callback => Program.lifecycle.step callback.acknowledge

end Operation

/-- An application with the notes of another one: what is held, promised, counted and shown. -/
def annotate (a notes : App) : App :=
  { notes with
    config := a.config
    name := a.name
    extension := a.extension
    tester := a.tester
    router := a.router
    testerWorker := a.testerWorker
    engineWorker := a.engineWorker
    lifecycle := a.lifecycle
    cells := a.cells
    sent := a.sent
    dropped := a.dropped }

/-- What is counted of commands, and nothing else. -/
def Counters.commands (c : Counters) : Counters := { c with oneWaySent := 0, resultsReturned := 0 }

/-- The second application differs from the first in its notes only, and in nothing that is counted
of commands. -/
structure Noted (a a' : App) : Prop where
  notes : a' = a.annotate a'
  commands : a'.counters.commands = a.counters.commands

/-- Programs made of operations and notes. -/
inductive Operates : {α : Type} → Program α → Prop where
  | pure {α : Type} (x : α) : Operates (pure x)
  | bind {α β : Type} {p : Program α} {f : α → Program β} (hp : Operates p)
    (hf : ∀ x, Operates (f x)) : Operates (p >>= f)
  | note {α : Type} {f : App → α × App} (hf : ∀ a, Noted a (f a).2) : Operates (modifyGet f)
  | perform (op : Operation) : Operates op.perform

/-- The second application with the commands, the boundaries and the events of the first. -/
def unheard (a a' : App) : App :=
  { a' with
    cells := a.cells
    boundaries := a.boundaries
    boundary := a.boundary
    testerEvents := a.testerEvents }

/-- Notes that are taken in the same way whoever listens, and that nobody hears of. -/
structure Discreet {α : Type} (f : App → α × App) : Prop where
  noted : ∀ a, Noted a (f a).2
  unheard : ∀ a, (f a).2 = a.unheard (f a).2
  typed : ∀ nobody a shown, f (a.typed nobody shown) = ((f a).1, (f a).2.typed nobody shown)

/-- An operation in which no foreign listener has a part. -/
def Operation.Typed (nobody : String) : Operation → Prop
  | sendCmd handler .. => handler.typed nobody = handler
  | complete completion => completion.typed = completion
  | send .. | returnResult _ | stop | await | acknowledge _ => True

/-- The second program does what the first does, for typed listeners in place of foreign ones. Both
see of the application only what does not depend on the listeners, and show the same. -/
inductive Mimics (nobody : String) : {α : Type} → Program α → Program α → Prop where
  | pure {α : Type} (x : α) : Mimics nobody (pure x) (pure x)
  | bind {α β : Type} {p p' : Program α} {f f' : α → Program β} (hp : Mimics nobody p p')
    (hf : ∀ x, Mimics nobody (f x) (f' x)) : Mimics nobody (p >>= f) (p' >>= f')
  | consult {α : Type} {f f' : App → Program α} (hf : ∀ a, Mimics nobody (f a) (f' a))
    (hblind : ∀ a shown, f' (a.typed nobody shown) = f' a) :
    Mimics nobody (get >>= f) (get >>= f')
  | note {α : Type} {f : App → α × App} (hf : Discreet f) :
    Mimics nobody (modifyGet f) (modifyGet f)
  | emit (side : Side) (event : Event) :
    Mimics nobody (Program.emit side event) (Program.emit side event)
  | complete (completion : Completion) :
    Mimics nobody (Operation.complete completion).perform
      (Operation.complete completion.typed).perform
  | perform (op : Operation) (hop : op.Typed nobody) : Mimics nobody op.perform op.perform

section Notes

variable {α : Type}

/-- A program that takes notes only. -/
theorem operates_of_noted {p : Program α} (h : ∀ a, Noted a (p.run a).2) : Operates p := .note h

theorem operates_get : Operates (get : Program App) := operates_of_noted fun _ => ⟨rfl, rfl⟩

theorem operates_modify {f : App → App} (hf : ∀ a, Noted a (f a)) :
    Operates (modify f : Program PUnit) := operates_of_noted hf

theorem operates_emit (side : Side) (event : Event) : Operates (Program.emit side event) :=
  operates_modify fun _ => by
    cases side
    · exact ⟨rfl, rfl⟩
    · exact ⟨rfl, rfl⟩

theorem operates_boundary_step (i : Nat) (f : Boundary → α × Boundary) :
    Operates ((Program.boundary i).step f) := operates_of_noted fun _ => ⟨rfl, rfl⟩

theorem operates_sendCmd (handler : Handler) (cmd : Cmd) (streaming : Bool) :
    Operates (Program.sendCmd handler cmd streaming) := .perform (.sendCmd handler cmd streaming)

theorem operates_acknowledge (callback : PhaseCallback) :
    Operates (Program.lifecycle.step callback.acknowledge) := .perform (.acknowledge callback)

/-- Whoever listens, what is done is made of operations and notes. -/
theorem Mimics.operates {nobody : String} {p p' : Program α} (h : Mimics nobody p p') :
    Operates p := by
  induction h with
  | pure x => exact .pure x
  | bind hp hf ihp ihf => exact ihp.bind ihf
  | consult hf hblind ih => exact operates_get.bind ih
  | note hf => exact .note hf.noted
  | emit side event => exact operates_emit side event
  | complete completion => exact .perform (.complete completion)
  | perform op hop => exact .perform op

end Notes

section Discretion

variable {nobody : String} {α : Type}

theorem mimics_modify {f : App → App} (hf : Discreet fun a => (PUnit.unit, f a)) :
    Mimics nobody (modify f : Program PUnit) (modify f) := .note hf

/-- Whatever is counted that are no commands. -/
theorem mimics_count {f : Counters → Counters} (hf : ∀ c, (f c).commands = c.commands) :
    Mimics nobody (Program.count f) (Program.count f) :=
  mimics_modify ⟨fun a => ⟨rfl, hf a.counters⟩, fun _ => rfl, fun _ _ _ => rfl⟩

theorem mimics_newPromise : Mimics nobody Program.newPromise Program.newPromise :=
  .note ⟨fun _ => ⟨rfl, rfl⟩, fun _ => rfl, fun _ _ _ => rfl⟩

theorem mimics_settlePromise (i : Nat) (p : Promise) :
    Mimics nobody (Program.settlePromise i p) (Program.settlePromise i p) :=
  mimics_modify ⟨fun _ => ⟨rfl, rfl⟩, fun _ => rfl, fun _ _ _ => rfl⟩

theorem mimics_during {p : Program α} (hp : Mimics nobody p p) :
    Mimics nobody (PermitPool.during Program.pool p) (PermitPool.during Program.pool p) := by
  have hpool (f : PermitPool → PermitPool) :
      Mimics nobody (Program.pool.modify f) (Program.pool.modify f) :=
    .note ⟨fun _ => ⟨rfl, rfl⟩, fun _ => rfl, fun _ _ _ => rfl⟩
  exact (hpool _).bind fun _ => hp.bind fun _ => (hpool _).bind fun _ => .pure _

theorem mimics_log (level : Int32) (site : LogSite) (message : String) :
    Mimics nobody (Program.log level site message) (Program.log level site message) := by
  rw [Program.log]
  split
  · exact .pure _
  · refine Mimics.bind (mimics_modify ?_) fun _ => .pure _
    exact ⟨fun _ => ⟨rfl, rfl⟩, fun _ => rfl, fun _ _ _ => rfl⟩

end Discretion

section Operations

variable {nobody : String}

theorem mimics_sendCmd {handler : Handler} (h : handler.typed nobody = handler) (cmd : Cmd)
    (streaming : Bool) :
    Mimics nobody (Program.sendCmd handler cmd streaming)
      (Program.sendCmd handler cmd streaming) := .perform (.sendCmd handler cmd streaming) h

theorem mimics_acknowledge (callback : PhaseCallback) :
    Mimics nobody (Program.lifecycle.step callback.acknowledge)
      (Program.lifecycle.step callback.acknowledge) := .perform (.acknowledge callback) trivial

/-- A completion that is refused is dropped; only a promise that is lost is remembered. -/
theorem mimics_scheduleCompletion (completion : Completion) :
    Mimics nobody (Program.scheduleCompletion completion)
      (Program.scheduleCompletion completion.typed) := by
  apply (Mimics.complete completion).bind
  intro answer
  cases answer with
  | ok _ => exact .pure _
  | error e =>
    cases completion with
    | promise i => exact mimics_settlePromise i .lost
    | scripted ack => exact .pure _
    | foreign i handle callback => exact .pure _

theorem mimics_counted {call : Program (Except Fault Unit)} (hcall : Mimics nobody call call)
    (f : Counters → Counters) (hf : ∀ c, (f c).commands = c.commands)
    (completion : Option Completion) :
    Mimics nobody (Program.counted call f completion)
      (Program.counted call f (completion.map Completion.typed)) := by
  apply (mimics_during hcall).bind
  intro answer
  cases answer with
  | error e => exact .pure _
  | ok _ =>
    apply (mimics_count hf).bind
    intro _
    cases completion with
    | none => exact .pure _
    | some completion => exact (mimics_scheduleCompletion completion).bind fun _ => .pure _

theorem mimics_send (side : Side) (msg : Message) (completion : Option Completion) :
    Mimics nobody (Program.send side msg completion)
      (Program.send side msg (completion.map Completion.typed)) := by
  cases side with
  | engine =>
    exact .consult (fun a => .perform (.send (a.outlet .engine) msg) trivial) fun _ _ => rfl
  | tester =>
    refine .consult (fun a => ?_) fun _ _ => rfl
    refine mimics_counted (.perform (.send (a.outlet .tester) msg) trivial) _ ?_ completion
    exact fun _ => rfl

theorem mimics_returnResult (side : Side) (result : CmdResult) (completion : Option Completion) :
    Mimics nobody (Program.returnResult side result completion)
      (Program.returnResult side result (completion.map Completion.typed)) := by
  cases side with
  | engine => exact .perform (.returnResult result) trivial
  | tester =>
    refine mimics_counted (.perform (.returnResult result) trivial) _ ?_ completion
    exact fun _ => rfl

/-- The run is stopped, and only somebody outside the tester's worker waits for it. -/
theorem mimics_stop (inside : Bool) :
    Mimics nobody (Program.stop inside) (Program.stop inside) := by
  apply (Mimics.perform .stop trivial).bind
  intro stopped
  rcases stopped with never | fault | first
  · exact nomatch never
  · exact .pure _
  · cases first with
    | false => exact .pure _
    | true =>
      cases inside with
      | true => exact .pure _
      | false => exact (Mimics.perform .await trivial).bind fun _ => .pure _

end Operations

section Accounts

theorem Noted.same {a a' : App} (h : Noted a a') : Same a a' := by
  rw [Same, h.notes]
  rfl

theorem Operation.keeps (op : Operation) : Keeps op.perform := by
  cases op with
  | sendCmd handler cmd streaming => exact keeps_sendCmd handler cmd streaming
  | send p msg => exact composes_keeps.send fits_fabric.toReaches p msg
  | returnResult result => exact composes_keeps.returnResult fits_fabric.complete result
  | complete completion => exact keeps_execute .tester rfl trivial
  | stop => exact keeps_beginStop ((keeps_tearDown "test stopped").bind fun _ => keeps_pure _)
  | await => exact keeps_flush .tester
  | acknowledge callback => exact keeps_lifecycle_step _

/-- Whatever is made of operations and notes keeps the accounts sound. -/
theorem Operates.keeps {α : Type} {p : Program α} (h : Operates p) : Keeps p := by
  induction h with
  | pure x => exact keeps_pure x
  | bind hp hf ihp ihf => exact ihp.bind ihf
  | note hf => exact keeps_modifyGet fun a => (hf a).same
  | perform op => exact op.keeps

end Accounts

end Switchboard.App
