import Switchboard.Proofs.App.Teardown
import Switchboard.Proofs.Foreign.Mimicry
/-!
# Turns

Whatever happens to an application, it happens in turns: somebody makes a step from outside, or a
worker runs its oldest task, or a run is begun or ended by so much. A turn in which neither a host
nor a task has a part is the same for all listeners.
-/
namespace Switchboard.App

/-- Whether a step is the program's own, and one turn: others are made by a host, and a drop takes
several turns. -/
def Step.isOwn : Step → Bool
  | dropApp | foreign _ => false
  | act _ | ext _ | asyncCmd .. | asyncData .. | poll _ | dropFuture _ => true

/-- What happens to an application at once. -/
inductive Turn where
  /-- the program makes a step from outside -/
  | step (s : Step) (own : s.isOwn)
  /-- a foreign host asks for something -/
  | host (call : ForeignCall)
  /-- a worker runs its oldest task -/
  | task (side : Side)
  /-- a tester is installed, and both sides are started -/
  | start (tester : TesterScript)
  /-- an announced phase is answered -/
  | answer (event : PhaseEvent)
  /-- somebody waits for a worker -/
  | flush (side : Side)
  /-- the router is closed, and everything is cancelled -/
  | abort (reason : String)
  /-- a worker is shut down -/
  | shutDown (side : Side)
  /-- the application has been dropped -/
  | leave

/-- What a turn does. -/
def Turn.perform : Turn → Program Answer
  | step s _ => Program.perform s
  | host call => Program.foreign call
  | task side => return .flag (← Program.advance side)
  | start tester => do
    Program.startRun tester
    return .done (.ok ())
  | answer event => return .flag (← Program.answerPhase event)
  | flush side => return .done (← (Program.worker side).step (·.flush false))
  | abort reason => return .count (← Program.abort reason)
  | shutDown side => do
    (Program.worker side).modify .shutDown
    return .done (.ok ())
  | leave => do
    modify fun a => { a with dropped := true, tester := none }
    return .done (.ok ())

/-- The application after a turn. -/
def turned (a : App) (t : Turn) : App := (t.perform.run a).2

/-- Whether neither a host nor a task has a part in a turn. -/
def Turn.isPlain : Turn → Bool
  | host _ | task _ => false
  | step .. | start _ | answer _ | flush _ | abort _ | shutDown _ | leave => true

section Plain

variable {nobody : String}

theorem follows_schedulePhase (callback : PhaseCallback) :
    Follows nobody (Program.schedulePhase callback) (Program.schedulePhase callback) :=
  (follows_accept .tester (.job (.phase callback))).bind fun _ => follows_pure _

theorem follows_startRun (tester : TesterScript) :
    Follows nobody (Program.startRun tester) (Program.startRun tester) := by
  have hinstalled : Follows nobody
      (modify fun a : App => { a with tester := some tester } : Program PUnit)
      (modify fun a : App => { a with tester := some tester }) :=
    follows_modify (fun _ => rfl) (fun _ _ _ => rfl) fun _ _ => rfl
  exact hinstalled.bind fun _ => (follows_schedulePhase .start).bind fun _ =>
    (follows_accept .engine (.job .startExtension)).bind fun _ => follows_pure _

theorem follows_answerPhase (event : PhaseEvent) :
    Follows nobody (Program.answerPhase event) (Program.answerPhase event) := by
  cases event with
  | started => exact follows_pure _
  | stopping => exact (follows_schedulePhase .stop).bind fun _ => follows_pure _
  | stopped => exact (follows_schedulePhase .deinit).bind fun _ => follows_pure _
  | deinited => exact follows_pure _

theorem follows_abort (reason : String) :
    Follows nobody (Program.abort reason) (Program.abort reason) := by
  have hcleared : Follows nobody (Program.router.modify .clearRoutes)
      (Program.router.modify .clearRoutes) := follows_router_step _
  exact hcleared.bind fun _ => follows_cancelAll reason

theorem follows_shutDown (side : Side) :
    Follows nobody ((Program.worker side).modify .shutDown)
      ((Program.worker side).modify .shutDown) :=
  follows_worker_step side (fun _ => rfl) fun _ => List.prefix_refl _

/-- A plain turn does the same whoever listens. -/
theorem Turn.follows {t : Turn} (h : t.isPlain) : Follows nobody t.perform t.perform := by
  cases t with
  | host call => cases h
  | task side => cases h
  | step s own =>
    refine (mimics_perform (fun heq => ?_) fun call heq => ?_).follows
    · subst heq
      cases own
    · subst heq
      cases own
  | start tester => exact (follows_startRun tester).bind fun _ => follows_pure _
  | answer event => exact (follows_answerPhase event).bind fun _ => follows_pure _
  | flush side => exact (follows_accept side .mark).bind fun _ => follows_pure _
  | abort reason => exact (follows_abort reason).bind fun _ => follows_pure _
  | shutDown side => exact (follows_shutDown side).bind fun _ => follows_pure _
  | leave =>
    refine Follows.bind ?_ fun _ => follows_pure _
    exact follows_modify (fun _ => rfl) (fun _ _ _ => rfl) fun _ _ => rfl

end Plain

/-- A program that does nothing but turns. -/
def InTurns (α : Type) (p : Program α) : Prop :=
  ∀ a, ∃ turns : List Turn, (p.run a).2 = turns.foldl turned a

section Everything

theorem composes_inTurns : Composes InTurns where
  pure _ _ := ⟨[], rfl⟩
  bind {α β p f} hp hf a := by
    obtain ⟨turns, hturns⟩ := hp a
    obtain ⟨more, hmore⟩ := hf (p.run a).1 (p.run a).2
    refine ⟨turns ++ more, ?_⟩
    rw [List.foldl_append, ← hturns, ← hmore]
    rfl

theorem inTurns_of_turn {α : Type} {p : Program α} (t : Turn)
    (h : ∀ a, (p.run a).2 = a.turned t) : InTurns α p := fun a => ⟨[t], h a⟩

theorem inTurns_of_same {α : Type} {p : Program α} (h : ∀ a, (p.run a).2 = a) : InTurns α p :=
  fun a => ⟨[], h a⟩

theorem inTurns_get : InTurns App get := inTurns_of_same fun _ => rfl

theorem inTurns_worker_get (side : Side) : InTurns _ (Program.worker side).get := by
  apply inTurns_of_same
  intro a
  cases side
  · rfl
  · rfl

theorem inTurns_advance (side : Side) : InTurns _ (Program.advance side) :=
  inTurns_of_turn (.task side) fun _ => rfl

theorem inTurns_abort (reason : String) : InTurns _ (Program.abort reason) :=
  inTurns_of_turn (.abort reason) fun _ => rfl

theorem inTurns_advanceTimes (side : Side) (n : Nat) : InTurns _ (Program.advanceTimes side n) := by
  induction n with
  | zero => exact composes_inTurns.pure _
  | succ n ih => exact composes_inTurns.bind (inTurns_advance side) fun _ => ih

theorem inTurns_advanceQueued (side : Side) : InTurns _ (Program.advanceQueued side) :=
  composes_inTurns.bind (inTurns_worker_get side) fun w => inTurns_advanceTimes side w.queue.length

theorem inTurns_advanceAny : InTurns _ Program.advanceAny := by
  apply composes_inTurns.bind (inTurns_advance .tester)
  intro ran
  cases ran with
  | true => exact composes_inTurns.pure _
  | false => exact inTurns_advance .engine

theorem inTurns_settleWithin (limit : Nat) : InTurns _ (Program.settleWithin limit) := by
  induction limit with
  | zero => exact composes_inTurns.pure _
  | succ limit ih =>
    apply composes_inTurns.bind inTurns_advanceAny
    intro ran
    cases ran with
    | true => exact ih
    | false => exact composes_inTurns.pure _

theorem inTurns_settle : InTurns _ Program.settle :=
  composes_inTurns.bind (inTurns_settleWithin Program.settleLimit) fun _ => composes_inTurns.pure _

theorem inTurns_shutDownWorker (side : Side) : InTurns _ (Program.shutDownWorker side) :=
  composes_inTurns.bind (inTurns_of_turn (.shutDown side) fun _ => rfl) fun _ =>
    inTurns_advanceQueued side

theorem inTurns_drop : InTurns _ Program.drop := by
  apply composes_inTurns.bind inTurns_get
  intro a
  split
  · exact composes_inTurns.pure _
  · exact composes_inTurns.bind (inTurns_abort "tester dropped") fun _ =>
      composes_inTurns.bind (inTurns_shutDownWorker .tester) fun _ =>
        composes_inTurns.bind (inTurns_shutDownWorker .engine) fun _ =>
          composes_inTurns.bind (inTurns_of_turn .leave fun _ => rfl) fun _ =>
            composes_inTurns.pure _

theorem inTurns_perform (s : Step) : InTurns _ (Program.perform s) := by
  cases s with
  | dropApp => exact composes_inTurns.bind inTurns_drop fun _ => composes_inTurns.pure _
  | foreign call => exact inTurns_of_turn (.host call) fun _ => rfl
  | act action => exact inTurns_of_turn (.step (.act action) rfl) fun _ => rfl
  | ext actions => exact inTurns_of_turn (.step (.ext actions) rfl) fun _ => rfl
  | asyncCmd tag cmd => exact inTurns_of_turn (.step (.asyncCmd tag cmd) rfl) fun _ => rfl
  | asyncData tag data => exact inTurns_of_turn (.step (.asyncData tag data) rfl) fun _ => rfl
  | poll tag => exact inTurns_of_turn (.step (.poll tag) rfl) fun _ => rfl
  | dropFuture tag => exact inTurns_of_turn (.step (.dropFuture tag) rfl) fun _ => rfl

theorem inTurns_stepAndSettle (s : Step) : InTurns _ (Program.stepAndSettle s) := by
  have hawait : InTurns _ Program.awaitMarks := by
    apply composes_inTurns.bind (inTurns_worker_get .tester)
    intro w
    split
    · exact inTurns_advanceQueued .tester
    · exact composes_inTurns.pure _
  have hstep : InTurns _ (Program.step s) :=
    composes_inTurns.bind (inTurns_perform s) fun _ =>
      composes_inTurns.bind hawait fun _ => composes_inTurns.pure _
  exact composes_inTurns.bind hstep fun _ =>
    composes_inTurns.bind inTurns_settle fun _ => composes_inTurns.pure _

theorem inTurns_move (m : Move) : InTurns _ m.perform := by
  cases m with
  | step s => exact composes_inTurns.bind (inTurns_perform s) fun _ => composes_inTurns.pure _
  | stepAndSettle s =>
    exact composes_inTurns.bind (inTurns_stepAndSettle s) fun _ => composes_inTurns.pure _
  | task side => exact inTurns_of_turn (.task side) fun _ => rfl
  | start tester => exact inTurns_of_turn (.start tester) fun _ => rfl
  | answer event => exact inTurns_of_turn (.answer event) fun _ => rfl
  | flush side => exact inTurns_of_turn (.flush side) fun _ => rfl
  | timeOut => exact inTurns_of_turn (.abort "run timed out") fun _ => rfl

theorem inTurns_moves (moves : List Move) : InTurns _ (moves.forM Move.perform) :=
  composes_inTurns.forM inTurns_move moves

theorem inTurns_runOn (seen limit : Nat) : InTurns _ (Program.runOn seen limit) := by
  induction limit generalizing seen with
  | zero => exact composes_inTurns.pure _
  | succ limit ih =>
    apply composes_inTurns.bind inTurns_get
    intro a
    split
    · next event _ =>
      have hanswer : InTurns _ (Program.answerPhase event) :=
        inTurns_of_turn (.answer event) fun _ => rfl
      apply composes_inTurns.bind hanswer
      intro last
      cases last with
      | true => exact composes_inTurns.pure _
      | false => exact ih (seen + 1)
    · apply composes_inTurns.bind inTurns_advanceAny
      intro ran
      cases ran with
      | true => exact ih seen
      | false => exact composes_inTurns.pure _

theorem inTurns_runToEnd (tester : TesterScript) : InTurns _ (Program.runToEnd tester) := by
  have hdrain (side : Side) : InTurns _ (Program.drain side) :=
    composes_inTurns.bind (inTurns_of_turn (.flush side) fun _ => rfl) fun _ =>
      inTurns_advanceQueued side
  have hdropped (outcome : Except RunTimeout RunReport) : InTurns _ (do
      let _ ← Program.drop
      return outcome) :=
    composes_inTurns.bind inTurns_drop fun _ => composes_inTurns.pure _
  refine composes_inTurns.bind (inTurns_of_turn (.start tester) fun _ => rfl) fun _ =>
    composes_inTurns.bind (inTurns_runOn 0 _) fun finished => ?_
  cases finished with
  | true =>
    have hreport : InTurns _ Program.report := inTurns_of_same fun _ => rfl
    exact composes_inTurns.bind (hdrain .tester) fun _ =>
      composes_inTurns.bind (hdrain .engine) fun _ =>
        composes_inTurns.bind inTurns_settle fun _ =>
          composes_inTurns.bind hreport fun _ => hdropped _
  | false =>
    have htimeOut : InTurns _ Program.timeOut :=
      inTurns_of_turn (.abort "run timed out") fun _ => rfl
    exact composes_inTurns.bind htimeOut fun _ => hdropped _

theorem inTurns_ending (e : Ending) : InTurns _ e.perform := by
  have hshut (side : Side) (moves : List Move) :
      InTurns _ (shutDownAmid side (moves.forM Move.perform)) :=
    composes_inTurns.bind (inTurns_of_turn (.shutDown side) fun _ => rfl) fun _ =>
      composes_inTurns.bind (inTurns_moves moves) fun _ => inTurns_advanceQueued side
  cases e with
  | drop => exact composes_inTurns.bind inTurns_drop fun _ => composes_inTurns.pure _
  | run tester =>
    exact composes_inTurns.bind (inTurns_runToEnd tester) fun _ => composes_inTurns.pure _
  | dropAmid aborted shuttingTester tested shuttingEngine =>
    exact composes_inTurns.bind (inTurns_abort "tester dropped") fun _ =>
      composes_inTurns.bind (inTurns_moves aborted) fun _ =>
        composes_inTurns.bind (hshut .tester shuttingTester) fun _ =>
          composes_inTurns.bind (inTurns_moves tested) fun _ =>
            composes_inTurns.bind (hshut .engine shuttingEngine) fun _ =>
              inTurns_of_turn .leave fun _ => rfl

/-- Whatever an application has become, it has become that by turns. -/
theorem Reached.exists_turns {a b : App} (h : Reached a b) :
    ∃ turns : List Turn, b = turns.foldl turned a := by
  induction h with
  | here => exact ⟨[], rfl⟩
  | @move b m h ih =>
    obtain ⟨turns, hb⟩ := ih
    obtain ⟨more, hmore⟩ := inTurns_move m b
    refine ⟨turns ++ more, ?_⟩
    rw [List.foldl_append, ← hb]
    exact hmore

/-- However it ends, it ends by turns. -/
theorem Reached.exists_turns_ended {a b : App} (h : Reached a b) (e : Ending) :
    ∃ turns : List Turn, b.ended e = turns.foldl turned a := by
  obtain ⟨turns, hb⟩ := h.exists_turns
  obtain ⟨more, hmore⟩ := inTurns_ending e b
  refine ⟨turns ++ more, ?_⟩
  rw [List.foldl_append, ← hb]
  exact hmore

end Everything

end Switchboard.App
