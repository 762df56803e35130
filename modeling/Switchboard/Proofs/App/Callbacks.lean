import Switchboard.App.Drive
import Switchboard.Proofs.App.Operations
/-!
# Callbacks are made of operations

A callback does what its script says, and a foreign host what it likes. Whatever that is and however
it ends, it is made of operations and notes. Scripts take no notice of foreign listeners: what they
do mimics itself.
-/
namespace Switchboard.App

section Boundaries

theorem operates_currentBoundary : Operates Program.currentBoundary :=
  .note fun a => by
    cases a.boundary
    · exact ⟨rfl, rfl⟩
    · exact ⟨rfl, rfl⟩

theorem operates_callBack (callback : Callback) (status : Status) (result : Option Handle) :
    Operates (Program.callBack callback status result) :=
  (operates_emit .tester _).bind fun _ => .pure _

theorem operates_presentOutcome (i : Nat) (outcome : Outcome) :
    Operates (Program.presentOutcome i outcome) := by
  cases outcome with
  | ok result => exact (operates_boundary_step i _).bind fun _ => .pure _
  | error fault => exact .pure _

theorem operates_deliverForeign (i : Nat) (callback : Option (Handle × Callback))
    (outcome : Outcome) : Operates (Program.deliverForeign i callback outcome) := by
  refine (operates_presentOutcome i outcome).bind fun (status, result) => ?_
  rcases callback with _ | ⟨handle, callback⟩
  · cases result with
    | none => exact .pure _
    | some message => exact (operates_boundary_step i _).bind fun _ => .pure _
  · cases hterminal : outcome.isTerminal with
    | true =>
      exact (operates_boundary_step i _).bind fun _ => operates_callBack callback status result
    | false => exact operates_callBack callback status result

theorem operates_completeForeign (i : Nat) (handle : Handle) (callback : Callback) :
    Operates (Program.completeForeign i handle callback) :=
  (operates_boundary_step i _).bind fun _ => operates_callBack callback .ok none

theorem operates_sendForeign {α : Type} (i : Nat) (message callback : UInt64) (kind : Kind)
    {send : Message → Option (Handle × Callback) → Program (Except Fault α)}
    (hsend : ∀ msg callback, Operates (send msg callback)) :
    Operates (Program.sendForeign i message callback kind send) := by
  apply (operates_boundary_step i _).bind
  intro b
  cases b.callback? callback with
  | error e => exact .pure _
  | ok callback =>
    apply (operates_boundary_step i _).bind
    intro taken
    cases taken with
    | error e => exact .pure _
    | ok msg => exact hsend msg callback

theorem operates_sendCmdForeign (i : Nat) (message callback : UInt64) (streaming : Bool) :
    Operates (Program.sendCmdForeign i message callback streaming) := by
  refine operates_sendForeign i message callback .cmd fun msg callback => ?_
  split
  · exact operates_sendCmd _ _ streaming
  · exact .pure _

theorem operates_sendOneWayForeign (i : Nat) (message callback : UInt64) (kind : Kind) :
    Operates (Program.sendOneWayForeign i message callback kind) :=
  operates_sendForeign i message callback kind fun msg _ =>
    (@mimics_send "" .tester msg _).operates

theorem operates_returnResultForeign (i : Nat) (message callback : UInt64) :
    Operates (Program.returnResultForeign i message callback) := by
  refine operates_sendForeign i message callback .cmdResult fun msg callback => ?_
  split
  · exact (@mimics_returnResult "" .tester _ _).operates
  · exact .pure _

/-- Whatever a foreign host asks for. -/
theorem operates_foreignAt (i : Nat) (call : ForeignCall) :
    Operates (Program.foreignAt i call) := by
  cases call with
  | create msg => exact (operates_boundary_step i _).bind fun _ => .pure _
  | callback callback => exact (operates_boundary_step i _).bind fun _ => .pure _
  | take raw => exact (operates_boundary_step i _).bind fun _ => .pure _
  | releaseMessage raw => exact (operates_boundary_step i _).bind fun _ => .pure _
  | releaseCallback raw => exact (operates_boundary_step i _).bind fun _ => .pure _
  | live => exact (operates_boundary_step i _).bind fun _ => .pure _
  | sendCmd message callback streaming =>
    exact (operates_sendCmdForeign i message callback streaming).bind fun _ => .pure _
  | sendData message callback =>
    exact (operates_sendOneWayForeign i message callback .data).bind fun _ => .pure _
  | sendAudioFrame message callback =>
    exact (operates_sendOneWayForeign i message callback .audioFrame).bind fun _ => .pure _
  | sendVideoFrame message callback =>
    exact (operates_sendOneWayForeign i message callback .videoFrame).bind fun _ => .pure _
  | returnResult message callback =>
    exact (operates_returnResultForeign i message callback).bind fun _ => .pure _
  | stop => exact (@mimics_stop "" false).operates.bind fun _ => .pure _
  | startDone => exact (operates_acknowledge .start).bind fun _ => .pure _
  | stopDone => exact (operates_acknowledge .stop).bind fun _ => .pure _
  | deinitDone => exact (operates_acknowledge .deinit).bind fun _ => .pure _
  | log level site message =>
    exact (@mimics_log "" level site message).operates.bind fun _ => .pure _
  | drop =>
    apply (operates_boundary_step i _).bind
    intro _
    refine Operates.bind (operates_modify fun _ => ?_) fun _ => .pure _
    exact ⟨rfl, rfl⟩

theorem operates_foreign (call : ForeignCall) : Operates (Program.foreign call) := by
  apply operates_get.bind
  intro a
  split
  · exact .pure _
  · exact operates_currentBoundary.bind fun i => operates_foreignAt i _

end Boundaries

section Futures

variable {nobody : String}

theorem mimics_keepFuture (tag : String) (future : FutureSend) :
    Mimics nobody (Program.keepFuture tag future) (Program.keepFuture tag future) :=
  mimics_modify ⟨fun _ => ⟨rfl, rfl⟩, fun _ => rfl, fun _ _ _ => rfl⟩

theorem mimics_sendCmdAsync (tag : String) (cmd : Cmd) :
    Mimics nobody (Program.sendCmdAsync tag cmd) (Program.sendCmdAsync tag cmd) := by
  apply mimics_newPromise.bind
  intro promise
  exact (mimics_sendCmd rfl cmd false).bind fun _ => mimics_keepFuture tag _

theorem mimics_sendDataAsync (tag : String) (data : Data) :
    Mimics nobody (Program.sendDataAsync tag data) (Program.sendDataAsync tag data) := by
  apply mimics_newPromise.bind
  intro promise
  exact (mimics_send .tester _ _).bind fun _ => mimics_keepFuture tag _

/-- A future that is ready is forgotten, whatever else has changed. -/
theorem mimics_poll (tag : String) : Mimics nobody (Program.poll tag) (Program.poll tag) := by
  have hpoll : Program.poll tag = get >>= fun a =>
      (a.futures.lookup tag).elim (pure .noFuture) fun future =>
        (Program.readiness future a.promises).elim (pure .notReady) fun answer =>
          modify (fun a => { a with futures := a.futures.filter (·.1 ≠ tag) }) >>= fun _ =>
            pure answer := by
    funext a
    have hget : (get : Program App).run a = (a, a) := rfl
    change (Program.poll tag).run a = StateT.run _ a
    rw [Program.poll, run_bind, run_bind, hget]
    cases a.futures.lookup tag with
    | none => rfl
    | some future =>
      dsimp only [Option.elim_some]
      cases Program.readiness future a.promises with
      | none => rfl
      | some answer => rfl
  rw [hpoll]
  refine .consult (fun a => ?_) fun _ _ => rfl
  cases a.futures.lookup tag with
  | none => exact .pure _
  | some future =>
    rw [Option.elim_some]
    cases Program.readiness future a.promises with
    | none => exact .pure _
    | some answer =>
      refine Mimics.bind (mimics_modify ?_) fun _ => .pure _
      exact ⟨fun _ => ⟨rfl, rfl⟩, fun _ => rfl, fun _ _ _ => rfl⟩

theorem mimics_dropFuture (tag : String) :
    Mimics nobody (Program.dropFuture tag) (Program.dropFuture tag) :=
  .note ⟨fun _ => ⟨rfl, rfl⟩, fun _ => rfl, fun _ _ _ => rfl⟩

end Futures

section Responder

variable {nobody : String}

theorem mimics_greet : Mimics nobody Responder.onStart Responder.onStart := by
  refine .consult (fun a => ?_) fun _ _ => rfl
  cases a.greeting with
  | none => exact .pure _
  | some greeting => exact (mimics_sendCmd rfl _ false).bind fun _ => .pure _

/-- The extension answers a message that is called by a name. -/
theorem mimics_onMessage (msg : Message) :
    Mimics nobody (Responder.onMessage msg) (Responder.onMessage msg) := by
  have hwhen (condition : Prop) [Decidable condition] {p : Program PUnit}
      (hp : Mimics nobody p p) :
      Mimics nobody (if condition then p else pure PUnit.unit)
        (if condition then p else pure PUnit.unit) := by
    split
    · exact hp
    · exact .pure _
  cases msg with
  | cmd cmd =>
    refine (mimics_returnResult .engine _ none).bind fun _ => hwhen _ ?_
    exact (mimics_sendCmd rfl _ false).bind fun _ => .pure _
  | data data => exact hwhen _ ((mimics_send .engine _ none).bind fun _ => .pure _)
  | audioFrame frame => exact hwhen _ ((mimics_send .engine _ none).bind fun _ => .pure _)
  | videoFrame frame => exact hwhen _ ((mimics_send .engine _ none).bind fun _ => .pure _)
  | cmdResult result => exact .pure _

end Responder

section Actions

variable {nobody : String}

/-- Scripts ask for completions of their own. -/
theorem typed_completionOf (side : Side) (ack : Option Ack) :
    (Program.completionOf side ack).map Completion.typed = Program.completionOf side ack := by
  cases side with
  | engine => rfl
  | tester =>
    cases ack with
    | none => rfl
    | some ack => rfl

theorem mimics_returnResultOf (side : Side) (result : CmdResult) (ack : Option Ack) :
    Mimics nobody (Program.returnResult side result (Program.completionOf side ack))
      (Program.returnResult side result (Program.completionOf side ack)) := by
  have hmimics := @mimics_returnResult nobody side result (Program.completionOf side ack)
  rwa [typed_completionOf] at hmimics

theorem mimics_sendOf (side : Side) (msg : Message) (ack : Option Ack) :
    Mimics nobody (Program.send side msg (Program.completionOf side ack))
      (Program.send side msg (Program.completionOf side ack)) := by
  have hmimics := @mimics_send nobody side msg (Program.completionOf side ack)
  rwa [typed_completionOf] at hmimics

theorem mimics_replyTo (side : Side) (cmd : Option Cmd) (reply : Reply) (ack : Option Ack) :
    Mimics nobody (Program.replyTo side cmd reply ack) (Program.replyTo side cmd reply ack) := by
  cases cmd with
  | none => exact .pure _
  | some cmd => exact (mimics_returnResultOf side _ ack).bind fun _ => .pure _

theorem mimics_actAsTester (inside : Bool) (action : Action) :
    Mimics nobody (Program.actAsTester inside action) (Program.actAsTester inside action) := by
  have hread (f : App → Answer) (hf : ∀ a shown, f (a.typed nobody shown) = f a) :
      Mimics nobody (get >>= fun a => pure (f a)) (get >>= fun a => pure (f a)) :=
    .consult (fun _ => .pure _) fun a shown => congrArg pure (hf a shown)
  unfold Program.actAsTester
  split
  · exact (mimics_stop inside).bind fun _ => .pure _
  · exact (mimics_acknowledge .start).bind fun _ => .pure _
  · exact (mimics_acknowledge .stop).bind fun _ => .pure _
  · exact (mimics_acknowledge .deinit).bind fun _ => .pure _
  · exact hread _ fun _ _ => rfl
  · exact hread _ fun _ _ => rfl
  · exact hread _ fun _ _ => rfl
  · exact hread _ fun _ _ => rfl
  · exact hread _ fun _ _ => rfl
  · exact (mimics_log _ _ _).bind fun _ => .pure _
  · exact hread _ fun _ _ => rfl

/-- Whatever an action does. -/
theorem mimics_act (side : Side) (inside : Bool) (current : Option Cmd) (action : Action) :
    Mimics nobody (Program.act side inside current action)
      (Program.act side inside current action) := by
  unfold Program.act
  split
  · exact (mimics_replyTo side current _ _).bind fun _ => .pure _
  · exact (mimics_returnResultOf side _ _).bind fun _ => .pure _
  · cases current with
    | none => exact .pure _
    | some cmd =>
      refine Mimics.bind (mimics_modify ?_) fun _ => .pure _
      exact ⟨fun _ => ⟨rfl, rfl⟩, fun _ => rfl, fun _ _ _ => rfl⟩
  · exact .consult (fun a => (mimics_replyTo side _ _ _).bind fun _ => .pure _) fun _ _ => rfl
  · exact (mimics_sendCmd rfl _ _).bind fun _ => .pure _
  · exact (mimics_sendOf side _ _).bind fun _ => .pure _
  · exact .pure _
  · cases side with
    | tester => exact (mimics_actAsTester inside action).bind fun _ => .pure _
    | engine => exact .consult (fun _ => .pure _) fun _ _ => rfl

/-- Whatever a script says, up to a panic. -/
theorem mimics_actAll (side : Side) (inside : Bool) (current : Option Cmd)
    (actions : List Action) :
    Mimics nobody (Program.actAll side inside current actions)
      (Program.actAll side inside current actions) := by
  induction actions with
  | nil => exact .pure _
  | cons action actions ih =>
    apply (mimics_act side inside current action).bind
    intro answer
    cases answer with
    | error panic => exact .pure _
    | ok answer => exact (Mimics.emit side _).bind fun _ => ih

end Actions

section Handlers

/-- An application of which a handler of a side is told an outcome: the tester counts it. -/
def observing (a : App) (side : Side) (outcome : Outcome) : App :=
  if side = .tester then { a with counters := a.counters.observe outcome } else a

theorem same_observing (a : App) (side : Side) (outcome : Outcome) :
    Same a (a.observing side outcome) := by
  rw [observing]
  split
  · rfl
  · rfl

/-- What a handler does with an outcome that was counted. -/
def handling (handler : Handler) (call : Nat) (outcome : Outcome) :
    Program (Except Panic Unit) := do
  match handler with
  | .scripted side tag followUp panicOn current =>
    Program.emit side (.outcome tag call outcome)
    match ← Program.actAll side true current followUp with
    | .error panic => return .error panic
    | .ok () => return if call ∈ panicOn then .error ⟨tag ++ " panics"⟩ else .ok ()
  | .promise i =>
    Program.settlePromise i (.outcome outcome)
    return .ok ()
  | .foreign i callback => Program.deliverForeign i callback outcome
  | .silent => return .ok ()

/-- A handler that is called is counted at first. -/
theorem run_callHandler (handler : Handler) (call : Nat) (outcome : Outcome) (a : App) :
    (Program.callHandler handler call outcome).run a =
      (handling handler call outcome).run (a.observing handler.side outcome) := by
  have hcounted {p : Program (Except Panic Unit)} :
      (if handler.side = .tester then Program.count (·.observe outcome) >>= fun _ => p
        else p).run a = p.run (a.observing handler.side outcome) := by
    rw [observing]
    split
    · rfl
    · rfl
  cases handler with
  | scripted side tag followUp panicOn current => exact hcounted
  | promise i => exact hcounted
  | foreign i callback => exact hcounted
  | silent => exact hcounted

/-- A handler of the program's own. -/
theorem mimics_handling {nobody : String} {handler : Handler}
    (h : handler.typed nobody = handler) (call : Nat) (outcome : Outcome) :
    Mimics nobody (handling handler call outcome) (handling handler call outcome) := by
  cases handler with
  | scripted side tag followUp panicOn current =>
    refine (Mimics.emit side _).bind fun _ => ?_
    apply (mimics_actAll side true current followUp).bind
    intro ended
    cases ended with
    | error panic => exact .pure _
    | ok _ => exact .pure _
  | promise i => exact (mimics_settlePromise i _).bind fun _ => .pure _
  | foreign i listener => exact absurd rfl (ne_foreign_of_typed nobody h i listener)
  | silent => exact .pure _

theorem operates_handling (handler : Handler) (call : Nat) (outcome : Outcome) :
    Operates (handling handler call outcome) := by
  cases handler with
  | foreign i callback => exact operates_deliverForeign i callback outcome
  | scripted side tag followUp panicOn current => exact (@mimics_handling "" _ rfl _ _).operates
  | promise i => exact (@mimics_handling "" _ rfl _ _).operates
  | silent => exact (@mimics_handling "" _ rfl _ _).operates

theorem keeps_callHandler (handler : Handler) (call : Nat) (outcome : Outcome) :
    Keeps (Program.callHandler handler call outcome) := by
  intro a hand ha
  have hsame := a.same_observing handler.side outcome
  obtain ⟨hsound, hcalm⟩ := (operates_handling handler call outcome).keeps _ hand (ha.same hsame)
  rw [run_callHandler]
  exact ⟨hsound, hsame.calm.trans hcalm⟩

end Handlers

section Jobs

variable {nobody : String}

/-- A completion of the program's own. -/
theorem mimics_runCompletion {completion : Completion} (h : completion.typed = completion) :
    Mimics nobody (Program.runCompletion completion) (Program.runCompletion completion) := by
  cases completion with
  | scripted ack => exact (Mimics.emit .tester _).bind fun _ => mimics_actAll .tester true none _
  | promise i => exact (mimics_settlePromise i _).bind fun _ => .pure _
  | foreign i handle callback => cases h

theorem mimics_refuse (side : Side) (name : String) (msg : Message) :
    Mimics nobody (Program.refuse side name msg) (Program.refuse side name msg) := by
  unfold Program.refuse
  split
  · exact (mimics_returnResult side _ none).bind fun _ => .pure _
  · exact .pure _

theorem mimics_followRules (side : Side) (name : String) (rules : MessageRules) (msg : Message) :
    Mimics nobody (Program.followRules side name rules msg)
      (Program.followRules side name rules msg) := by
  apply (Mimics.emit side _).bind
  intro _
  cases rules.match? msg with
  | some actions => exact mimics_actAll side true _ actions
  | none => exact mimics_refuse side name msg

theorem mimics_handleArrival (side : Side) (msg : Message) :
    Mimics nobody (Program.handleArrival side msg) (Program.handleArrival side msg) := by
  refine .consult (fun a => ?_) fun _ _ => rfl
  cases side with
  | tester =>
    cases a.tester with
    | none => exact .pure _
    | some script => exact mimics_followRules .tester _ _ msg
  | engine =>
    cases a.extension with
    | scripted script => exact mimics_followRules .engine _ _ msg
    | responder => exact (mimics_onMessage msg).bind fun _ => .pure _

theorem mimics_initExtension (properties : Json) :
    Mimics nobody (Program.initExtension properties) (Program.initExtension properties) := by
  refine .consult (fun a => ?_) fun _ _ => rfl
  cases a.extension with
  | scripted script =>
    exact (Mimics.emit .engine _).bind fun _ => mimics_actAll .engine true none _
  | responder =>
    refine Mimics.bind (mimics_modify ?_) fun _ => .pure _
    exact ⟨fun _ => ⟨rfl, rfl⟩, fun _ => rfl, fun _ _ _ => rfl⟩

theorem mimics_startExtension : Mimics nobody Program.startExtension Program.startExtension := by
  refine .consult (fun a => ?_) fun _ _ => rfl
  cases a.extension with
  | responder => exact mimics_greet.bind fun _ => .pure _
  | scripted script =>
    dsimp only
    cases script.onStart with
    | none => exact .pure _
    | some actions =>
      exact (Mimics.emit .engine _).bind fun _ => mimics_actAll .engine true none _

theorem mimics_runPhase (callback : PhaseCallback) :
    Mimics nobody (Program.runPhase callback) (Program.runPhase callback) := by
  refine .consult (fun a => ?_) fun _ _ => rfl
  cases a.tester with
  | none => exact .pure _
  | some script =>
    apply (Mimics.emit .tester _).bind
    intro _
    cases callback.actions? script with
    | some actions => exact mimics_actAll .tester true none actions
    | none => exact (mimics_acknowledge callback).bind fun _ => .pure _

/-- Whether a job brings the outcome of a command. -/
def Job.isDelivery : Job → Bool
  | resume .. => true
  | arrival _ | initExtension _ | startExtension | phase _ | completion _ => false

/-- A job of the program's own that brings no outcome. -/
theorem mimics_runJob (side : Side) {job : Job} (hjob : job.typed = job)
    (hother : job.isDelivery = false) :
    Mimics nobody (Program.runJob side job) (Program.runJob side job) := by
  cases job with
  | resume k outcome terminal => cases hother
  | arrival msg => exact mimics_handleArrival side msg
  | initExtension properties => exact mimics_initExtension properties
  | startExtension => exact mimics_startExtension
  | phase callback => exact mimics_runPhase callback
  | completion completion => exact mimics_runCompletion (Job.completion.inj hjob)

/-- A job that brings no outcome. -/
theorem operates_runJob (side : Side) {job : Job}
    (hother : job.isDelivery = false) :
    Operates (Program.runJob side job) := by
  by_cases hjob : job.typed = job
  · exact (@mimics_runJob "" side job hjob hother).operates
  · cases job with
    | completion completion =>
      cases completion with
      | foreign i handle callback => exact operates_completeForeign i handle callback
      | scripted ack => exact absurd rfl hjob
      | promise i => exact absurd rfl hjob
    | resume k outcome terminal => exact absurd rfl hjob
    | arrival msg => exact absurd rfl hjob
    | initExtension properties => exact absurd rfl hjob
    | startExtension => exact absurd rfl hjob
    | phase callback => exact absurd rfl hjob

end Jobs

section Steps

variable {nobody : String}

/-- A step that is made by no host, and that does not drop the application. -/
theorem mimics_perform {s : Step} (hkept : s ≠ .dropApp) (hhost : ∀ call, s ≠ .foreign call) :
    Mimics nobody (Program.perform s) (Program.perform s) := by
  cases s with
  | act action =>
    apply (mimics_act .tester false none action).bind
    intro answer
    cases answer with
    | ok answer => exact .pure _
    | error panic => exact .pure _
  | ext actions =>
    apply (mimics_actAll .engine false none actions).bind
    intro ended
    cases ended with
    | ok _ => exact .pure _
    | error panic => exact .pure _
  | dropApp => exact absurd rfl hkept
  | asyncCmd tag cmd => exact (mimics_sendCmdAsync tag cmd).bind fun _ => .pure _
  | asyncData tag data => exact (mimics_sendDataAsync tag data).bind fun _ => .pure _
  | poll tag => exact mimics_poll tag
  | dropFuture tag => exact (mimics_dropFuture tag).bind fun _ => .pure _
  | foreign call => exact absurd rfl (hhost call)

/-- Whatever step is made, unless it drops the application. -/
theorem operates_perform {s : Step} (hkept : s ≠ .dropApp) : Operates (Program.perform s) := by
  by_cases hhost : ∃ call, s = .foreign call
  · obtain ⟨call, rfl⟩ := hhost
    exact operates_foreign call
  · refine (@mimics_perform "" s hkept fun call h => hhost ⟨call, h⟩).operates

end Steps

end Switchboard.App
