import Switchboard.Proofs.App.Calls
import Switchboard.Proofs.Foreign.Turns
/-!
# The makings of callbacks

All that callbacks and hosts do, apart from what they show, is made of a few things that are done at
once: of calls of the router, of continuations that are made, of phases that are acknowledged, of
tasks that are queued, and of notes. A property of programs that those have, and that carries over
from the parts of a program to the whole, is a property of every action.
-/
namespace Switchboard.App

/-- What is counted of the outcomes that handlers are called with. -/
def Counters.received (c : Counters) : Counters :=
  { c with cmdsSent := 0, oneWaySent := 0, resultsReturned := 0 }

/-- The first application with the notes of the second that are neither shown nor counted of what
handlers are called with. -/
def unseen (a notes : App) : App :=
  { a.annotate notes with
    pool := a.pool
    testerEvents := a.testerEvents
    engineEvents := a.engineEvents
    counters := { notes.counters with
      results := a.counters.results
      intermediate := a.counters.intermediate
      failed := a.counters.failed
      cancelled := a.counters.cancelled } }

/-- The things that actions are made of have a property. -/
structure Makings (K : (α : Type) → Program α → Prop) : Prop extends Composes K where
  get : K App get
  /-- notes are taken -/
  note : ∀ {α : Type} {p : Program α}, (∀ a, (p.run a).2 = a.unseen (p.run a).2) → K α p
  /-- the tester's side calls the router, with a slot of the pool -/
  inside : ∀ call : RouterCall,
    K _ (MonadState.get >>= fun a => PermitPool.during Program.pool (call.body a .tester))
  /-- the engine's side calls the router -/
  outside : ∀ call : RouterCall, K _ (MonadState.get >>= fun a => call.body a .engine)
  enlist : ∀ handler, K _ (Program.newCell handler)
  remember : ∀ i, K PUnit (modify fun a => { a with sent := a.sent ++ [i] })
  stop : K _ Operation.stop.perform
  acknowledge : ∀ callback : PhaseCallback, K _ (Program.lifecycle.step callback.acknowledge)
  accept : ∀ (side : Side) (task : Task Job), K _ ((Program.worker side).step (·.accept task))

namespace Makings

variable {K : (α : Type) → Program α → Prop} {α β : Type}

/-- A program that ends with an answer. -/
theorem answer (hK : Makings K) {p : Program α} (hp : K α p) {f : α → β} :
    K β (p >>= fun x => pure (f x)) := hK.bind hp fun x => hK.pure (f x)

/-- A program that looks at the application, does something with it, and goes on with what that has
answered. -/
theorem consult (hK : Makings K) {p : App → Program α} (hp : K α (MonadState.get >>= p))
    {f : α → Program β} (hf : ∀ x, K β (f x)) :
    K β (MonadState.get >>= fun a => p a >>= f) := by
  have hbind := hK.bind hp hf
  exact hbind

section Sends

theorem count (hK : Makings K) {f : Counters → Counters}
    (hf : ∀ c, (f c).received = c.received) : K _ (Program.count f) := by
  apply hK.note
  intro a
  have hreceived := hf a.counters
  simp only [Counters.received, Counters.mk.injEq, true_and, and_true] at hreceived
  obtain ⟨hresults, hintermediate, hfailed, hcancelled⟩ := hreceived
  change { a with counters := f a.counters } = a.unseen { a with counters := f a.counters }
  rw [unseen, ← hresults, ← hintermediate, ← hfailed, ← hcancelled]
  rfl

theorem settlePromise (hK : Makings K) (i : Nat) (p : Promise) :
    K _ (Program.settlePromise i p) := hK.note fun _ => rfl

/-- The command of a side: the tester's takes a slot of the pool for the call. -/
theorem sendCmdFrom (hK : Makings K) (side : Side) (continuation : Nat) (cmd : Cmd)
    (streaming : Bool) : K _ (Program.sendCmdFrom side continuation cmd streaming) := by
  cases side with
  | engine => exact hK.outside (.command continuation cmd streaming)
  | tester =>
    refine hK.consult (hK.inside (.command continuation cmd streaming)) fun answer => ?_
    cases answer with
    | ok id => exact hK.bind (hK.count fun _ => rfl) fun _ => hK.pure _
    | error e => exact hK.pure _

theorem sendCmd (hK : Makings K) (handler : Handler) (cmd : Cmd) (streaming : Bool) :
    K _ (Program.sendCmd handler cmd streaming) := by
  apply hK.bind (hK.enlist handler)
  intro continuation
  apply hK.bind (hK.sendCmdFrom handler.side continuation cmd streaming)
  intro answer
  cases answer with
  | ok id => exact hK.answer (hK.remember continuation)
  | error e => exact hK.pure _

theorem scheduleCompletion (hK : Makings K) (completion : Completion) :
    K _ (Program.scheduleCompletion completion) := by
  apply hK.bind (hK.accept .tester (.job (.completion completion)))
  intro answer
  cases answer with
  | ok _ => exact hK.pure _
  | error e =>
    cases completion with
    | promise i => exact hK.settlePromise i .lost
    | scripted ack => exact hK.pure _
    | foreign i handle callback => exact hK.pure _

/-- A call of the tester, of which the completion is only queued when the slot was given back. -/
theorem counted (hK : Makings K) {call : App → Program (Except Fault Unit)}
    (hcall : K _ (MonadState.get >>= fun a => PermitPool.during Program.pool (call a)))
    (f : Counters → Counters) (hf : ∀ c, (f c).received = c.received)
    (completion : Option Completion) :
    K _ (MonadState.get >>= fun a => Program.counted (call a) f completion) := by
  refine hK.consult hcall fun answer => ?_
  cases answer with
  | error e => exact hK.pure _
  | ok _ =>
    apply hK.bind (hK.count hf)
    intro _
    cases completion with
    | none => exact hK.pure _
    | some completion => exact hK.answer (hK.scheduleCompletion completion)

theorem send (hK : Makings K) (side : Side) (msg : Message) (completion : Option Completion) :
    K _ (Program.send side msg completion) := by
  cases side with
  | engine => exact hK.outside (.message msg)
  | tester =>
    refine hK.counted (hK.inside (.message msg)) _ ?_ completion
    exact fun _ => rfl

theorem returnResult (hK : Makings K) (side : Side) (result : CmdResult)
    (completion : Option Completion) : K _ (Program.returnResult side result completion) := by
  cases side with
  | engine => exact hK.outside (.answer result)
  | tester =>
    refine hK.counted (hK.inside (.answer result)) _ ?_ completion
    exact fun _ => rfl

theorem stopRun (hK : Makings K) (inside : Bool) : K _ (Program.stop inside) := by
  apply hK.bind hK.stop
  intro stopped
  rcases stopped with never | fault | first
  · exact nomatch never
  · exact hK.pure _
  · cases first with
    | false => exact hK.pure _
    | true =>
      cases inside with
      | true => exact hK.pure _
      | false => exact hK.answer (hK.accept .tester .mark)

theorem log (hK : Makings K) (level : Int32) (site : LogSite) (message : String) :
    K _ (Program.log level site message) := by
  rw [Program.log]
  split
  · exact hK.pure _
  · exact hK.note fun _ => rfl

end Sends

section Boundaries

theorem boundary_step (hK : Makings K) (i : Nat) (f : Boundary → α × Boundary) :
    K α ((Program.boundary i).step f) := hK.note fun _ => rfl

theorem presentOutcome (hK : Makings K) (i : Nat) (outcome : Outcome) :
    K _ (Program.presentOutcome i outcome) := by
  cases outcome with
  | ok result => exact hK.answer (hK.boundary_step i _)
  | error fault => exact hK.pure _

theorem sendForeign (hK : Makings K) (i : Nat) (message callback : UInt64) (kind : Kind)
    {send : Message → Option (Handle × Callback) → Program (Except Fault α)}
    (hsend : ∀ msg callback, K _ (send msg callback)) :
    K _ (Program.sendForeign i message callback kind send) := by
  apply hK.bind (hK.boundary_step i _)
  intro b
  cases b.callback? callback with
  | error e => exact hK.pure _
  | ok callback =>
    apply hK.bind (hK.boundary_step i _)
    intro taken
    cases taken with
    | error e => exact hK.pure _
    | ok msg => exact hsend msg callback

/-- Whatever a foreign host asks for. -/
theorem foreignAt (hK : Makings K) (i : Nat) (call : ForeignCall) :
    K _ (Program.foreignAt i call) := by
  have hsend (message callback : UInt64) (kind : Kind) : K _ (do
      return Answer.status (.ofResult
        (← Program.sendOneWayForeign i message callback kind))) :=
    hK.answer (hK.sendForeign i message callback kind fun msg callback =>
      hK.send .tester msg _)
  cases call with
  | create msg => exact hK.answer (hK.boundary_step i _)
  | callback callback => exact hK.answer (hK.boundary_step i _)
  | take raw => exact hK.answer (hK.boundary_step i _)
  | releaseMessage raw => exact hK.answer (hK.boundary_step i _)
  | releaseCallback raw => exact hK.answer (hK.boundary_step i _)
  | live => exact hK.answer (hK.boundary_step i _)
  | sendCmd message callback streaming =>
    refine hK.answer (hK.sendForeign i message callback .cmd fun msg callback => ?_)
    split
    · exact hK.sendCmd _ _ streaming
    · exact hK.pure _
  | sendData message callback => exact hsend message callback .data
  | sendAudioFrame message callback => exact hsend message callback .audioFrame
  | sendVideoFrame message callback => exact hsend message callback .videoFrame
  | returnResult message callback =>
    refine hK.answer (hK.sendForeign i message callback .cmdResult fun msg callback => ?_)
    split
    · exact hK.returnResult .tester _ _
    · exact hK.pure _
  | stop => exact hK.answer (hK.stopRun false)
  | startDone => exact hK.answer (hK.acknowledge .start)
  | stopDone => exact hK.answer (hK.acknowledge .stop)
  | deinitDone => exact hK.answer (hK.acknowledge .deinit)
  | log level site message => exact hK.answer (hK.log level site message)
  | drop =>
    apply hK.bind (hK.boundary_step i _)
    intro _
    exact hK.answer (hK.note fun _ => rfl)

theorem foreign (hK : Makings K) (call : ForeignCall) : K _ (Program.foreign call) := by
  have hboundary : K _ Program.currentBoundary := by
    have hnote {f : App → Nat × App} (hf : ∀ a, (f a).2 = a.unseen (f a).2) :
        K Nat (modifyGet f) := hK.note hf
    apply hnote
    intro a
    cases a.boundary
    · rfl
    · rfl
  apply hK.bind hK.get
  intro a
  split
  · exact hK.pure _
  · exact hK.bind hboundary fun i => hK.foreignAt i _

end Boundaries

section Futures

theorem poll (hK : Makings K) (tag : String) : K _ (Program.poll tag) := by
  apply hK.note
  intro a
  have hget : (MonadState.get : Program App).run a = (a, a) := rfl
  rw [Program.poll, run_bind, hget]
  cases a.futures.lookup tag with
  | none => rfl
  | some future =>
    dsimp only
    cases Program.readiness future a.promises with
    | none => rfl
    | some answer => rfl

theorem sendCmdAsync (hK : Makings K) (tag : String) (cmd : Cmd) :
    K _ (Program.sendCmdAsync tag cmd) := by
  have hpromise : K _ Program.newPromise := hK.note fun _ => rfl
  apply hK.bind hpromise
  intro promise
  exact hK.bind (hK.sendCmd _ cmd false) fun _ => hK.note fun _ => rfl

theorem sendDataAsync (hK : Makings K) (tag : String) (data : Data) :
    K _ (Program.sendDataAsync tag data) := by
  have hpromise : K _ Program.newPromise := hK.note fun _ => rfl
  apply hK.bind hpromise
  intro promise
  exact hK.bind (hK.send .tester _ _) fun _ => hK.note fun _ => rfl

end Futures

section Actions

theorem replyTo (hK : Makings K) (side : Side) (cmd : Option Cmd) (reply : Reply)
    (ack : Option Ack) : K _ (Program.replyTo side cmd reply ack) := by
  cases cmd with
  | none => exact hK.pure _
  | some cmd => exact hK.answer (hK.returnResult side _ _)

theorem actAsTester (hK : Makings K) (inside : Bool) (action : Action) :
    K _ (Program.actAsTester inside action) := by
  unfold Program.actAsTester
  split
  · exact hK.answer (hK.stopRun inside)
  · exact hK.answer (hK.acknowledge .start)
  · exact hK.answer (hK.acknowledge .stop)
  · exact hK.answer (hK.acknowledge .deinit)
  · exact hK.answer hK.get
  · exact hK.answer hK.get
  · exact hK.answer hK.get
  · exact hK.answer hK.get
  · exact hK.answer hK.get
  · exact hK.answer (hK.log _ _ _)
  · exact hK.answer hK.get

/-- Whatever an action does. -/
theorem act (hK : Makings K) (side : Side) (inside : Bool) (current : Option Cmd)
    (action : Action) : K _ (Program.act side inside current action) := by
  unfold Program.act
  split
  · exact hK.answer (hK.replyTo side current _ _)
  · exact hK.answer (hK.returnResult side _ _)
  · cases current with
    | none => exact hK.pure _
    | some cmd => exact hK.answer (hK.note fun _ => rfl)
  · exact hK.bind hK.get fun a => hK.answer (hK.replyTo side _ _ _)
  · exact hK.answer (hK.sendCmd _ _ _)
  · exact hK.answer (hK.send side _ _)
  · exact hK.pure _
  · cases side with
    | tester => exact hK.answer (hK.actAsTester inside action)
    | engine => exact hK.answer hK.get

/-- A command that nothing else answers is refused. -/
theorem refuse (hK : Makings K) (side : Side) (name : String) (msg : Message) :
    K _ (Program.refuse side name msg) := by
  unfold Program.refuse
  split
  · exact hK.answer (hK.returnResult side _ none)
  · exact hK.pure _

/-- The extension that answers pings greets the tester. -/
theorem greet (hK : Makings K) : K _ Responder.onStart := by
  apply hK.bind hK.get
  intro a
  cases a.greeting with
  | none => exact hK.pure _
  | some greeting => exact hK.answer (hK.sendCmd _ _ false)

/-- The extension that answers pings gets a message. -/
theorem onMessage (hK : Makings K) (msg : Message) : K _ (Responder.onMessage msg) := by
  have hwhen (condition : Prop) [Decidable condition] {p : Program PUnit} (hp : K _ p) :
      K _ (if condition then p else pure PUnit.unit) := by
    split
    · exact hp
    · exact hK.pure _
  have hsend (msg : Message) : K _ (do let _ ← Program.send .engine msg none) :=
    hK.answer (hK.send .engine msg none)
  cases msg with
  | cmd cmd =>
    apply hK.bind (hK.returnResult .engine _ none)
    intro _
    exact hwhen _ (hK.answer (hK.sendCmd _ _ false))
  | data data => exact hwhen _ (hsend _)
  | audioFrame frame => exact hwhen _ (hsend _)
  | videoFrame frame => exact hwhen _ (hsend _)
  | cmdResult result => exact hK.pure _

end Actions

section Turns

theorem schedulePhase (hK : Makings K) (callback : PhaseCallback) :
    K _ (Program.schedulePhase callback) :=
  hK.answer (hK.accept .tester (.job (.phase callback)))

/-- An announced phase is answered. -/
theorem answerPhase (hK : Makings K) (event : PhaseEvent) : K _ (Program.answerPhase event) := by
  cases event with
  | started => exact hK.pure _
  | stopping => exact hK.answer (hK.schedulePhase .stop)
  | stopped => exact hK.answer (hK.schedulePhase .deinit)
  | deinited => exact hK.pure _

end Turns

end Makings
end Switchboard.App
