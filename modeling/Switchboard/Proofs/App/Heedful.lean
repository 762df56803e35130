import Switchboard.Proofs.App.Heeding
/-!
# Everything is done alike

Callbacks, handlers, hosts and turns do alike to applications beside each other, as long as no
outcome reaches the continuation that is watched and no completion keeps the promise.
-/
namespace Switchboard.App

variable {w : Watch} {α : Type}

section Boundaries

theorem heeds_currentBoundary : Heeds w Program.currentBoundary Program.currentBoundary := by
  refine heeds_modifyGet ⟨fun a => ?_, fun a side => ?_, fun a => ?_, fun a => ?_, fun a => ?_,
    fun a => ?_⟩
  · cases a.boundary <;> rfl
  · cases a.boundary <;> rfl
  · cases a.boundary <;> rfl
  · cases a.boundary <;> rfl
  · cases hboundary : a.boundary <;> simp [stripped, hboundary]
  · cases hboundary : a.boundary <;> simp [stripped, hboundary, Worker.emptied]

theorem heeds_callBack (callback : Callback) (status : Status) (result : Option Handle) :
    Heeds w (Program.callBack callback status result)
      (Program.callBack callback status result) := (heeds_emit .tester _).answer

theorem heeds_deliverForeign (i : Nat) (callback : Option (Handle × Callback))
    (outcome : Outcome) :
    Heeds w (Program.deliverForeign i callback outcome)
      (Program.deliverForeign i callback outcome) := by
  have hpresent : Heeds w (Program.presentOutcome i outcome)
      (Program.presentOutcome i outcome) := by
    cases outcome with
    | ok result => exact (heeds_boundary_step i _).answer
    | error fault => exact heeds_pure _
  apply hpresent.bind
  rintro ⟨status, result⟩
  rcases callback with _ | ⟨handle, callback⟩
  · cases result with
    | none => exact heeds_pure _
    | some message => exact (heeds_boundary_step i _).answer
  · cases hterminal : outcome.isTerminal with
    | true =>
      exact (heeds_boundary_step i _).bind fun _ => heeds_callBack callback status result
    | false => exact heeds_callBack callback status result

theorem heeds_sendForeign (i : Nat) (message callback : UInt64) (kind : Kind)
    {send : Message → Option (Handle × Callback) → Program (Except Fault α)}
    (hsend : ∀ msg callback, Heeds w (send msg callback) (send msg callback)) :
    Heeds w (Program.sendForeign i message callback kind send)
      (Program.sendForeign i message callback kind send) := by
  apply (heeds_boundary_step i _).bind
  intro boundary
  cases boundary.callback? callback with
  | error e => exact heeds_pure _
  | ok callback =>
    apply (heeds_boundary_step i _).bind
    intro taken
    cases taken with
    | error e => exact heeds_pure _
    | ok msg => exact hsend msg callback

/-- The completions of a host keep no promises. -/
theorem foreignCompletion_ne (i : Nat) (callback : Option (Handle × Callback)) (p : Nat) :
    Program.foreignCompletion i callback ≠ some (.promise p) := by
  rcases callback with _ | ⟨handle, callback⟩
  · exact nofun
  · exact nofun

/-- Whatever a foreign host asks for. -/
theorem heeds_foreignAt (i : Nat) (call : ForeignCall) :
    Heeds w (Program.foreignAt i call) (Program.foreignAt i call) := by
  have hsend (message callback : UInt64) (kind : Kind) :
      Heeds w
        (do return Answer.status (.ofResult (← Program.sendOneWayForeign i message callback kind)))
        (do return Answer.status (.ofResult
          (← Program.sendOneWayForeign i message callback kind))) := by
    refine (heeds_sendForeign i message callback kind fun msg callback => ?_).answer
    exact heeds_send .tester msg (foreignCompletion_ne i callback)
  have hacknowledge (phase : PhaseCallback) :
      Heeds w
        (do return Answer.status (.ofResult (← Program.lifecycle.step phase.acknowledge)))
        (do return Answer.status (.ofResult (← Program.lifecycle.step phase.acknowledge))) :=
    (heeds_lifecycle_step _).answer
  cases call with
  | create msg => exact (heeds_boundary_step i _).answer
  | callback callback => exact (heeds_boundary_step i _).answer
  | take raw => exact (heeds_boundary_step i _).answer
  | releaseMessage raw => exact (heeds_boundary_step i _).answer
  | releaseCallback raw => exact (heeds_boundary_step i _).answer
  | live => exact (heeds_boundary_step i _).answer
  | sendCmd message callback streaming =>
    refine (heeds_sendForeign i message callback .cmd fun msg callback => ?_).answer
    split
    · exact heeds_sendCmd rfl (admits_of_ne (by nofun)) _ streaming
    · exact heeds_pure _
  | sendData message callback => exact hsend message callback .data
  | sendAudioFrame message callback => exact hsend message callback .audioFrame
  | sendVideoFrame message callback => exact hsend message callback .videoFrame
  | returnResult message callback =>
    refine (heeds_sendForeign i message callback .cmdResult fun msg callback => ?_).answer
    split
    · exact heeds_returnResult .tester _ (foreignCompletion_ne i callback)
    · exact heeds_pure _
  | stop => exact (heeds_stop false).answer
  | startDone => exact hacknowledge .start
  | stopDone => exact hacknowledge .stop
  | deinitDone => exact hacknowledge .deinit
  | log level site message => exact (heeds_log level site message).answer
  | drop =>
    apply (heeds_boundary_step i _).bind
    intro _
    refine Heeds.answer (heeds_modify ?_)
    exact ⟨fun _ => rfl, fun _ _ => rfl, fun _ => rfl, fun _ => rfl, fun _ => rfl, fun _ => rfl⟩

theorem heeds_foreign (call : ForeignCall) :
    Heeds w (Program.foreign call) (Program.foreign call) := by
  refine heeds_consult (fun a => ?_) fun _ => rfl
  split
  · exact heeds_pure _
  · exact heeds_currentBoundary.bind fun i => heeds_foreignAt i _

end Boundaries

section Actions

/-- Scripts ask for completions of their own. -/
theorem completionOf_ne (side : Side) (ack : Option Ack) (p : Nat) :
    Program.completionOf side ack ≠ some (.promise p) := by
  cases side with
  | engine => exact nofun
  | tester =>
    cases ack with
    | none => exact nofun
    | some ack => exact nofun

theorem heeds_replyTo (side : Side) (cmd : Option Cmd) (reply : Reply) (ack : Option Ack) :
    Heeds w (Program.replyTo side cmd reply ack) (Program.replyTo side cmd reply ack) := by
  cases cmd with
  | none => exact heeds_pure _
  | some cmd => exact (heeds_returnResult side _ (completionOf_ne side ack)).answer

theorem heeds_actAsTester (inside : Bool) (action : Action) :
    Heeds w (Program.actAsTester inside action) (Program.actAsTester inside action) := by
  have hread (f : App → Answer) (hf : ∀ a, f a.stripped = f a) :
      Heeds w (get >>= fun a => pure (f a)) (get >>= fun a => pure (f a)) :=
    heeds_consult (fun _ => heeds_pure _) fun a => congrArg pure (hf a)
  unfold Program.actAsTester
  split
  · exact (heeds_stop inside).answer
  · exact (heeds_lifecycle_step _).answer
  · exact (heeds_lifecycle_step _).answer
  · exact (heeds_lifecycle_step _).answer
  · exact hread _ fun _ => rfl
  · exact hread _ fun _ => rfl
  · exact hread _ fun _ => rfl
  · exact hread _ fun _ => rfl
  · exact hread _ fun _ => rfl
  · exact (heeds_log _ _ _).answer
  · exact hread _ fun _ => rfl

/-- Whatever an action does. -/
theorem heeds_act (side : Side) (inside : Bool) (current : Option Cmd) (action : Action) :
    Heeds w (Program.act side inside current action) (Program.act side inside current action) := by
  unfold Program.act
  split
  · exact (heeds_replyTo side current _ _).answer
  · exact (heeds_returnResult side _ (completionOf_ne side _)).answer
  · cases current with
    | none => exact heeds_pure _
    | some cmd =>
      refine Heeds.answer (heeds_modify ?_)
      exact ⟨fun _ => rfl, fun _ _ => rfl, fun _ => rfl, fun _ => rfl, fun _ => rfl,
        fun _ => rfl⟩
  · exact heeds_consult (fun _ => (heeds_replyTo side _ _ _).answer) fun _ => rfl
  · exact (heeds_sendCmd rfl (admits_of_ne (by nofun)) _ _).answer
  · exact (heeds_send side _ (completionOf_ne side _)).answer
  · exact heeds_pure _
  · cases side with
    | tester => exact (heeds_actAsTester inside action).answer
    | engine => exact heeds_consult (fun _ => heeds_pure _) fun _ => rfl

/-- Whatever a script says, up to a panic. -/
theorem heeds_actAll (side : Side) (inside : Bool) (current : Option Cmd)
    (actions : List Action) :
    Heeds w (Program.actAll side inside current actions)
      (Program.actAll side inside current actions) := by
  induction actions with
  | nil => exact heeds_pure _
  | cons action actions ih =>
    apply (heeds_act side inside current action).bind
    intro answer
    cases answer with
    | error panic => exact heeds_pure _
    | ok answer => exact (heeds_emit side _).bind fun _ => ih

end Actions

section Handlers

/-- A handler is called with the same outcome that does not keep the promise. -/
theorem heeds_callHandler {handler handler' : Handler} (hmasked : handler.masked = handler'.masked)
    (hne : ∀ p, handler = .promise p → w.promise ≠ some p) (call : Nat) (outcome : Outcome) :
    Heeds w (Program.callHandler handler call outcome)
      (Program.callHandler handler' call outcome) := by
  have hcounted {p p' : Program (Except Panic Unit)} (hp : Heeds w p p') :
      Heeds w (if handler.side = .tester then Program.count (·.observe outcome) >>= fun _ => p
        else p) (if handler.side = .tester then
        Program.count (·.observe outcome) >>= fun _ => p' else p') := by
    split
    · exact (heeds_count _).bind fun _ => hp
    · exact hp
  rcases eq_or_promise_of_masked hmasked with rfl | ⟨i, j, rfl, rfl⟩
  · cases handler with
    | scripted side tag followUp panicOn current =>
      refine hcounted ((heeds_emit side _).bind fun _ => ?_)
      apply (heeds_actAll side true current followUp).bind
      intro ended
      cases ended with
      | error panic => exact heeds_pure _
      | ok _ => exact heeds_pure _
    | promise i => exact hcounted (heeds_settlePromise (hne i rfl) i _ _).answer
    | foreign i callback => exact hcounted (heeds_deliverForeign i callback outcome)
    | silent => exact hcounted (heeds_pure _)
  · exact hcounted (heeds_settlePromise (hne i rfl) j _ _).answer

/-- Another continuation calls its handler and puts it back. -/
theorem heeds_callOut {i : Nat} (hi : w.number ≠ some i) {handler handler' : Handler}
    (hmasked : handler.masked = handler'.masked) (hadmits : w.Admits handler) (outcome : Outcome)
    (terminal : Bool) (call : Nat) :
    Heeds w
      (Continuation.callOut (Program.cell i) Program.callHandler outcome terminal handler call)
      (Continuation.callOut (Program.cell i) Program.callHandler outcome terminal handler'
        call) := by
  apply (heeds_callHandler hmasked (fun p hp => (hadmits p hp).2) call outcome).bind
  intro ended
  have hback : Heeds w ((Program.cell i).modify (Continuation.putBack terminal handler))
      ((Program.cell i).modify (Continuation.putBack terminal handler')) := fun _ _ _ h =>
    ⟨rfl, h.putBack hi hmasked hadmits terminal⟩
  exact hback.answer

/-- A delivery to another continuation. -/
theorem heeds_resume {i : Nat} (hi : w.number ≠ some i) (outcome : Outcome) (terminal : Bool) :
    Heeds w (Continuation.resume (Program.cell i) Program.callHandler outcome terminal)
      (Continuation.resume (Program.cell i) Program.callHandler outcome terminal) := by
  intro hand a b h
  obtain ⟨hbeside, htaken⟩ := h.takeOut hi outcome terminal
  rw [Continuation.resume, run_bind, run_bind, run_cell_step, run_cell_step]
  rcases htaken with ⟨hnone, hnone'⟩ | ⟨handler, handler', call, hsome, hsome', hmasked, hadmits⟩
  · rw [hnone, hnone']
    exact ⟨rfl, hbeside⟩
  · rw [hsome, hsome']
    have habove := hbeside.above (Nat.zero_le _) (Nat.le_refl a.promises.size)
    have hadmits' : (w.above 0 a.promises.size).Admits handler := fun p hp =>
      ⟨Nat.lt_of_lt_of_le (hadmits p hp).1 (Nat.le_max_right _ _), (hadmits p hp).2⟩
    obtain ⟨hanswer, hafter⟩ := heeds_callOut (w := w.above 0 a.promises.size) hi hmasked hadmits'
      outcome terminal call hand _ _ habove
    exact ⟨hanswer, hafter.of_above⟩

end Handlers

section Jobs

theorem heeds_runCompletion {completion completion' : Completion}
    (hmasked : completion.masked = completion'.masked)
    (hne : ∀ p, completion = .promise p → w.promise ≠ some p) :
    Heeds w (Program.runCompletion completion) (Program.runCompletion completion') := by
  rcases completion_eq_or_promise_of_masked hmasked with rfl | ⟨i, j, rfl, rfl⟩
  · cases completion with
    | scripted ack => exact (heeds_emit .tester _).bind fun _ => heeds_actAll .tester true none _
    | promise i => exact (heeds_settlePromise (hne i rfl) i _ _).answer
    | foreign i handle callback =>
      exact (heeds_boundary_step i _).bind fun _ => heeds_callBack callback .ok none
  · exact (heeds_settlePromise (hne i rfl) j _ _).answer

theorem heeds_followRules (side : Side) (name : String) (rules : MessageRules) (msg : Message) :
    Heeds w (Program.followRules side name rules msg)
      (Program.followRules side name rules msg) := by
  apply (heeds_emit side _).bind
  intro _
  cases rules.match? msg with
  | some actions => exact heeds_actAll side true _ actions
  | none =>
    dsimp only
    unfold Program.refuse
    split
    · exact (heeds_returnResult side _ (by nofun)).answer
    · exact heeds_pure _

/-- The extension that answers pings. -/
theorem heeds_onMessage (msg : Message) :
    Heeds w (Responder.onMessage msg) (Responder.onMessage msg) := by
  have hwhen (condition : Prop) [Decidable condition] {p : Program PUnit} (hp : Heeds w p p) :
      Heeds w (if condition then p else pure PUnit.unit)
        (if condition then p else pure PUnit.unit) := by
    split
    · exact hp
    · exact heeds_pure _
  have hsend (msg : Message) : Heeds w (do let _ ← Program.send .engine msg none)
      (do let _ ← Program.send .engine msg none) := (heeds_send .engine msg (by nofun)).answer
  cases msg with
  | cmd cmd =>
    apply (heeds_returnResult .engine _ (by nofun)).bind
    intro _
    apply hwhen
    exact (heeds_sendCmd rfl (admits_of_ne (by nofun)) _ false).answer
  | data data => exact hwhen _ (hsend _)
  | audioFrame frame => exact hwhen _ (hsend _)
  | videoFrame frame => exact hwhen _ (hsend _)
  | cmdResult result => exact heeds_pure _

theorem heeds_handleArrival (side : Side) (msg : Message) :
    Heeds w (Program.handleArrival side msg) (Program.handleArrival side msg) := by
  refine heeds_consult (fun a => ?_) fun _ => rfl
  cases side with
  | tester =>
    cases a.tester with
    | none => exact heeds_pure _
    | some script => exact heeds_followRules .tester _ _ msg
  | engine =>
    cases a.extension with
    | scripted script => exact heeds_followRules .engine _ _ msg
    | responder => exact (heeds_onMessage msg).answer

theorem heeds_initExtension (properties : Json) :
    Heeds w (Program.initExtension properties) (Program.initExtension properties) := by
  refine heeds_consult (fun a => ?_) fun _ => rfl
  cases a.extension with
  | scripted script =>
    exact (heeds_emit .engine _).bind fun _ => heeds_actAll .engine true none _
  | responder =>
    refine Heeds.answer (heeds_modify ?_)
    exact ⟨fun _ => rfl, fun _ _ => rfl, fun _ => rfl, fun _ => rfl, fun _ => rfl, fun _ => rfl⟩

theorem heeds_startExtension :
    Heeds w Program.startExtension Program.startExtension := by
  have hgreet : Heeds w Responder.onStart Responder.onStart := by
    refine heeds_consult (fun a => ?_) fun _ => rfl
    cases a.greeting with
    | none => exact heeds_pure _
    | some greeting => exact (heeds_sendCmd rfl (admits_of_ne (by nofun)) _ false).answer
  refine heeds_consult (fun a => ?_) fun _ => rfl
  cases a.extension with
  | responder => exact hgreet.answer
  | scripted script =>
    dsimp only
    cases script.onStart with
    | none => exact heeds_pure _
    | some actions =>
      exact (heeds_emit .engine _).bind fun _ => heeds_actAll .engine true none _

theorem heeds_runPhase (callback : PhaseCallback) :
    Heeds w (Program.runPhase callback) (Program.runPhase callback) := by
  refine heeds_consult (fun a => ?_) fun _ => rfl
  cases a.tester with
  | none => exact heeds_pure _
  | some script =>
    apply (heeds_emit .tester _).bind
    intro _
    cases callback.actions? script with
    | some actions => exact heeds_actAll .tester true none actions
    | none => exact (heeds_lifecycle_step _).answer

/-- Whatever a callback does that is neither for the continuation nor for the promise. -/
theorem heeds_runJob (side : Side) {job job' : Job} (hmasked : job.masked = job'.masked)
    (hkeeps : w.keeps (.job job) = false) :
    Heeds w (Program.runJob side job) (Program.runJob side job') := by
  have hcompletion {c c' : Completion} (hmasked : c.masked = c'.masked)
      (hkeeps : w.keeps (.job (.completion c)) = false) :
      Heeds w (Program.runCompletion c) (Program.runCompletion c') := by
    refine heeds_runCompletion hmasked fun p hp => ?_
    subst hp
    exact of_decide_eq_false hkeeps
  rcases job_eq_or_completion_of_masked hmasked with rfl | ⟨c, c', rfl, rfl, halike⟩
  · cases job with
    | resume i outcome terminal =>
      exact heeds_resume (of_decide_eq_false hkeeps) outcome terminal
    | arrival msg => exact heeds_handleArrival side msg
    | initExtension properties => exact heeds_initExtension properties
    | startExtension => exact heeds_startExtension
    | phase callback => exact heeds_runPhase callback
    | completion c => exact hcompletion rfl hkeeps
  · exact hcompletion halike hkeeps

end Jobs

end Switchboard.App
