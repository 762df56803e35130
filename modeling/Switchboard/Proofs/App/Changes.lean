import Mathlib.Logic.Relation
import Switchboard.Proofs.App.Makings
import Switchboard.Proofs.Run.Scene
/-!
# What callbacks and turns do

Whatever callbacks, handlers and foreign hosts do, and whatever is done from outside, is made of a
few changes, one after the other. The beginning of a callback is one, a call of the router is
another: no callback begins during a call.
-/
namespace Switchboard.App

/-- A callback begins: a worker takes the job out of its queue, or a delivery the handler out of a
continuation. What runs then is the job, or the handler. -/
inductive Begins (a : App) : App → Program (Except Panic Unit) → Prop
  | job (side : Side) (job : Job) (h : (a.worker side).next.1 = some (.job job)) :
    Begins a (a.popped side) (Program.runJob side job)
  | handler (i : Nat) (outcome : Outcome) (terminal : Bool) (handler : Handler) (call : Nat)
    (h : ((a.cells.getD i { slot := .released }).takeOut outcome terminal).1 =
      some (handler, call)) :
    Begins a (a.setCell i ((a.cells.getD i { slot := .released }).takeOut outcome terminal).2)
      (Program.callHandler handler call outcome)

/-- What anybody does to an application at once, inside or outside of callbacks. -/
inductive Change (a : App) : App → Prop
  /-- the tester's side calls the router, with a slot of the pool -/
  | inside (call : RouterCall) :
    Change a ((PermitPool.during Program.pool (call.body a .tester)).run a).2
  /-- the engine's side calls the router -/
  | outside (call : RouterCall) : Change a ((call.body a .engine).run a).2
  /-- a worker takes its oldest task -/
  | pop (side : Side) : Change a (a.popped side)
  /-- a delivery takes a handler out, or finds none -/
  | takeOut (i : Nat) (outcome : Outcome) (terminal : Bool) :
    Change a (a.setCell i ((a.cells.getD i { slot := .released }).takeOut outcome terminal).2)
  /-- a continuation is made for a command -/
  | enlist (handler : Handler) : Change a ((Program.newCell handler).run a).2
  /-- the command of a continuation was sent -/
  | remember (i : Nat) : Change a { a with sent := a.sent ++ [i] }
  /-- notes are taken that nothing else depends on -/
  | note (notes : App) : Change a { a.annotate notes with pool := a.pool }
  /-- the run is stopped -/
  | stop : Change a (Operation.stop.perform.run a).2
  /-- a phase is acknowledged -/
  | acknowledge (callback : PhaseCallback) :
    Change a ((Program.lifecycle.step callback.acknowledge).run a).2
  /-- a task is queued: a completion, a callback of a phase, the mark of somebody who waits -/
  | queue (side : Side) (task : Task Job) :
    Change a (((Program.worker side).step (·.accept task)).run a).2
  /-- a handler that was called is put back -/
  | putBack (i : Nat) (terminal : Bool) (handler : Handler) :
    Change a (a.setCell i ((a.cells.getD i { slot := .released }).putBack terminal handler))
  /-- a task has come to its end -/
  | finish (side : Side) (ended : Except Panic Unit) : Change a (a.counted side ended)
  /-- a tester is installed -/
  | install (tester : TesterScript) : Change a { a with tester := some tester }
  /-- the router is closed, and everything is cancelled -/
  | abort (reason : String) : Change a ((Program.abort reason).run a).2
  /-- a worker is shut down -/
  | shutDown (side : Side) : Change a (a.setWorker side (a.worker side).shutDown)
  /-- the application is left -/
  | leave : Change a { a with dropped := true, tester := none }

/-- Changes that follow one another. -/
abbrev Changes : App → App → Prop := Relation.ReflTransGen Change

theorem Begins.change {a a' : App} {callback : Program (Except Panic Unit)}
    (h : Begins a a' callback) : Change a a' := by
  cases h with
  | job side job h => exact .pop side
  | handler i outcome terminal handler call h => exact .takeOut i outcome terminal

/-- A program that makes nothing but changes. -/
def InChanges (α : Type) (p : Program α) : Prop := ∀ a, Changes a (p.run a).2

section Parts

variable {α : Type}

theorem composes_inChanges : Composes InChanges where
  pure _ _ := .refl
  bind hp hf a := (hp a).trans (hf _ _)

theorem InChanges.bind {β : Type} {p : Program α} {f : α → Program β} (hp : InChanges α p)
    (hf : ∀ x, InChanges β (f x)) : InChanges β (p >>= f) := composes_inChanges.bind hp hf

/-- A program that ends with an answer. -/
theorem InChanges.answer {β : Type} {p : Program α} (hp : InChanges α p) {f : α → β} :
    InChanges β (p >>= fun x => pure (f x)) := hp.bind fun x => composes_inChanges.pure (f x)

theorem inChanges_of_change {p : Program α} (h : ∀ a, Change a (p.run a).2) : InChanges α p :=
  fun a => .single (h a)

/-- A program that takes notes only, and leaves the pool alone. -/
theorem inChanges_of_notes {p : Program α}
    (h : ∀ a, (p.run a).2 = { a.annotate (p.run a).2 with pool := a.pool }) : InChanges α p := by
  apply inChanges_of_change
  intro a
  rw [h a]
  exact .note (p.run a).2

theorem inChanges_emit (side : Side) (event : Event) : InChanges _ (Program.emit side event) := by
  apply inChanges_of_notes
  intro a
  cases side
  · rfl
  · rfl

theorem inChanges_boundary_step (i : Nat) (f : Boundary → α × Boundary) :
    InChanges α ((Program.boundary i).step f) := inChanges_of_notes fun _ => rfl

theorem inChanges_settlePromise (i : Nat) (p : Promise) :
    InChanges _ (Program.settlePromise i p) := inChanges_of_notes fun _ => rfl

theorem inChanges_accept (side : Side) (task : Task Job) :
    InChanges _ ((Program.worker side).step (·.accept task)) :=
  inChanges_of_change fun _ => .queue side task

/-- What actions are made of are changes. -/
theorem makings_inChanges : Makings InChanges where
  toComposes := composes_inChanges
  get _ := .refl
  note h := inChanges_of_notes fun a => by rw [h a]; rfl
  inside call := inChanges_of_change fun _ => .inside call
  outside call := inChanges_of_change fun _ => .outside call
  enlist handler := inChanges_of_change fun _ => .enlist handler
  remember i := inChanges_of_change fun _ => .remember i
  stop := inChanges_of_change fun _ => .stop
  acknowledge callback := inChanges_of_change fun _ => .acknowledge callback
  accept := inChanges_accept

end Parts

section Boundaries

theorem inChanges_callBack (callback : Callback) (status : Status) (result : Option Handle) :
    InChanges _ (Program.callBack callback status result) := (inChanges_emit .tester _).answer

theorem inChanges_deliverForeign (i : Nat) (callback : Option (Handle × Callback))
    (outcome : Outcome) : InChanges _ (Program.deliverForeign i callback outcome) := by
  have hpresent : InChanges _ (Program.presentOutcome i outcome) := by
    cases outcome with
    | ok result => exact (inChanges_boundary_step i _).answer
    | error fault => exact composes_inChanges.pure _
  apply hpresent.bind
  rintro ⟨status, result⟩
  rcases callback with _ | ⟨handle, callback⟩
  · cases result with
    | none => exact composes_inChanges.pure _
    | some message => exact (inChanges_boundary_step i _).answer
  · cases hterminal : outcome.isTerminal with
    | true =>
      exact (inChanges_boundary_step i _).bind fun _ => inChanges_callBack callback status result
    | false => exact inChanges_callBack callback status result

end Boundaries

section Actions

/-- Whatever a script says, up to a panic. -/
theorem inChanges_actAll (side : Side) (inside : Bool) (current : Option Cmd)
    (actions : List Action) : InChanges _ (Program.actAll side inside current actions) := by
  induction actions with
  | nil => exact composes_inChanges.pure _
  | cons action actions ih =>
    apply (makings_inChanges.act side inside current action).bind
    intro answer
    cases answer with
    | error panic => exact composes_inChanges.pure _
    | ok answer => exact (inChanges_emit side _).bind fun _ => ih

end Actions

section Handlers

theorem inChanges_handling (handler : Handler) (call : Nat) (outcome : Outcome) :
    InChanges _ (handling handler call outcome) := by
  cases handler with
  | scripted side tag followUp panicOn current =>
    refine (inChanges_emit side _).bind fun _ => ?_
    apply (inChanges_actAll side true current followUp).bind
    intro ended
    cases ended with
    | error panic => exact composes_inChanges.pure _
    | ok _ => exact composes_inChanges.pure _
  | promise i => exact (inChanges_settlePromise i _).answer
  | foreign i callback => exact inChanges_deliverForeign i callback outcome
  | silent => exact composes_inChanges.pure _

theorem inChanges_callHandler (handler : Handler) (call : Nat) (outcome : Outcome) :
    InChanges _ (Program.callHandler handler call outcome) := by
  intro a
  have hobserved : a.observing handler.side outcome =
      { a.annotate (a.observing handler.side outcome) with pool := a.pool } := by
    rw [observing]
    split
    · rfl
    · rfl
  have hcounted : Changes a (a.observing handler.side outcome) := by
    rw [hobserved]
    exact .single (.note _)
  rw [run_callHandler]
  exact hcounted.trans (inChanges_handling handler call outcome _)

/-- A delivery begins the call of a handler, or finds none. -/
theorem inChanges_resume (i : Nat) (outcome : Outcome) (terminal : Bool) :
    InChanges _ (Continuation.resume (Program.cell i) Program.callHandler outcome terminal) := by
  apply (inChanges_of_change fun _ => .takeOut i outcome terminal).bind
  intro taken
  rcases taken with _ | ⟨handler, n⟩
  · exact composes_inChanges.pure _
  · apply (inChanges_callHandler handler n outcome).bind
    intro ended
    exact (inChanges_of_change fun _ => .putBack i terminal handler).answer

end Handlers

section Jobs

theorem inChanges_runCompletion (completion : Completion) :
    InChanges _ (Program.runCompletion completion) := by
  cases completion with
  | scripted ack =>
    exact (inChanges_emit .tester _).bind fun _ => inChanges_actAll .tester true none _
  | promise i => exact (inChanges_settlePromise i _).answer
  | foreign i handle callback =>
    exact (inChanges_boundary_step i _).bind fun _ => inChanges_callBack callback .ok none

theorem inChanges_followRules (side : Side) (name : String) (rules : MessageRules) (msg : Message) :
    InChanges _ (Program.followRules side name rules msg) := by
  apply (inChanges_emit side _).bind
  intro _
  cases rules.match? msg with
  | some actions => exact inChanges_actAll side true _ actions
  | none => exact makings_inChanges.refuse side name msg

theorem inChanges_handleArrival (side : Side) (msg : Message) :
    InChanges _ (Program.handleArrival side msg) := by
  apply makings_inChanges.get.bind
  intro a
  cases side with
  | tester =>
    cases a.tester with
    | none => exact composes_inChanges.pure _
    | some script => exact inChanges_followRules .tester _ _ msg
  | engine =>
    cases a.extension with
    | scripted script => exact inChanges_followRules .engine _ _ msg
    | responder => exact (makings_inChanges.onMessage msg).answer

theorem inChanges_initExtension (properties : Json) :
    InChanges _ (Program.initExtension properties) := by
  apply makings_inChanges.get.bind
  intro a
  cases a.extension with
  | scripted script =>
    exact (inChanges_emit .engine _).bind fun _ => inChanges_actAll .engine true none _
  | responder => exact (inChanges_of_notes fun _ => rfl).answer

theorem inChanges_startExtension : InChanges _ Program.startExtension := by
  apply makings_inChanges.get.bind
  intro a
  cases a.extension with
  | responder => exact makings_inChanges.greet.answer
  | scripted script =>
    dsimp only
    cases script.onStart with
    | none => exact composes_inChanges.pure _
    | some actions =>
      exact (inChanges_emit .engine _).bind fun _ => inChanges_actAll .engine true none _

theorem inChanges_runPhase (callback : PhaseCallback) :
    InChanges _ (Program.runPhase callback) := by
  apply makings_inChanges.get.bind
  intro a
  cases a.tester with
  | none => exact composes_inChanges.pure _
  | some script =>
    apply (inChanges_emit .tester _).bind
    intro _
    cases callback.actions? script with
    | some actions => exact inChanges_actAll .tester true none actions
    | none => exact (makings_inChanges.acknowledge callback).answer

/-- Whatever a callback does. -/
theorem inChanges_runJob (side : Side) (job : Job) : InChanges _ (Program.runJob side job) := by
  cases job with
  | resume i outcome terminal => exact inChanges_resume i outcome terminal
  | arrival msg => exact inChanges_handleArrival side msg
  | initExtension properties => exact inChanges_initExtension properties
  | startExtension => exact inChanges_startExtension
  | phase callback => exact inChanges_runPhase callback
  | completion completion => exact inChanges_runCompletion completion

/-- The beginning of a task, what it does, and its end. -/
theorem inChanges_advance (side : Side) : InChanges _ (Program.advance side) := by
  have hfinish (ended : Except Panic Unit) :
      InChanges _ ((Program.worker side).modify (·.count ended)) :=
    inChanges_of_change fun _ => .finish side ended
  apply (inChanges_of_change fun _ => .pop side).bind
  intro task
  rcases task with _ | ⟨job | _⟩
  · exact composes_inChanges.pure _
  · apply (inChanges_runJob side job).bind
    exact fun ended => (hfinish ended).answer
  · exact (hfinish (.ok ())).answer

end Jobs

theorem Begins.inChanges {a a' : App} {callback : Program (Except Panic Unit)}
    (h : Begins a a' callback) : InChanges _ callback := by
  cases h with
  | job side job h => exact inChanges_runJob side job
  | handler i outcome terminal handler call h => exact inChanges_callHandler handler call outcome

section Turns

variable {a b : App}

theorem inChanges_perform {s : Step} (h : s.isOwn) : InChanges _ (Program.perform s) := by
  cases s with
  | dropApp => cases h
  | foreign call => cases h
  | act action =>
    apply (makings_inChanges.act .tester false none action).bind
    intro answer
    cases answer with
    | ok answer => exact composes_inChanges.pure _
    | error panic => exact composes_inChanges.pure _
  | ext actions =>
    apply (inChanges_actAll .engine false none actions).bind
    intro ended
    cases ended with
    | ok _ => exact composes_inChanges.pure _
    | error panic => exact composes_inChanges.pure _
  | asyncCmd tag cmd => exact (makings_inChanges.sendCmdAsync tag cmd).answer
  | asyncData tag data => exact (makings_inChanges.sendDataAsync tag data).answer
  | poll tag => exact makings_inChanges.poll tag
  | dropFuture tag => exact (inChanges_of_notes fun _ => rfl).answer

/-- A turn makes nothing but changes. -/
theorem inChanges_turn (t : Turn) : InChanges _ t.perform := by
  cases t with
  | step s own => exact inChanges_perform own
  | host call => exact makings_inChanges.foreign call
  | task side => exact (inChanges_advance side).answer
  | start tester =>
    refine InChanges.answer ?_
    apply (inChanges_of_change fun _ => .install tester).bind
    intro _
    apply (makings_inChanges.schedulePhase .start).bind
    intro _
    exact (inChanges_accept .engine (.job .startExtension)).answer
  | answer event => exact (makings_inChanges.answerPhase event).answer
  | flush side => exact (inChanges_accept side .mark).answer
  | abort reason => exact (inChanges_of_change fun _ => .abort reason).answer
  | shutDown side => exact (inChanges_of_change fun _ => .shutDown side).answer
  | leave => exact (inChanges_of_change fun _ => .leave).answer

/-- Turns make nothing but changes. -/
theorem changes_turns (a : App) (turns : List Turn) : Changes a (turns.foldl turned a) := by
  induction turns generalizing a with
  | nil => exact .refl
  | cons t turns ih => exact (inChanges_turn t a).trans (ih (a.turned t))

theorem InTurns.inChanges {α : Type} {p : Program α} (h : InTurns α p) : InChanges α p := by
  intro a
  obtain ⟨turns, hturns⟩ := h a
  rw [hturns]
  exact changes_turns a turns

/-- Whatever an application has become, it has become that by changes. -/
theorem Reached.changes (h : Reached a b) : Changes a b := by
  obtain ⟨turns, rfl⟩ := h.exists_turns
  exact changes_turns a turns

end Turns

end Switchboard.App
