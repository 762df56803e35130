import Switchboard.Proofs.App.Showing
/-!
# What a worker does with a job

A job is a callback of one side, or the outcome of a command. Its role is what is seen of it: what is
shown when it begins, and the script that is followed then. Every job is carried out: its role is
played and nothing else is shown, the handler that it calls is counted and a promise is kept, and
the handler waits again afterwards unless it was called for the last time.
-/
namespace Switchboard

/-- The handler of a continuation, while it waits. -/
def Continuation.handler? {h : Type} (c : Continuation h) : Option h :=
  match c.slot with
  | .waiting handler => some handler
  | .running | .released => none

theorem Continuation.slot_of_handler? {h : Type} {c : Continuation h} {handler : h}
    (hwaits : c.handler? = some handler) : c.slot = .waiting handler := by
  rw [handler?] at hwaits
  split at hwaits
  · next heq =>
    cases hwaits
    exact heq
  · cases hwaits
  · cases hwaits

namespace App

/-- The handler that waits at the continuation of a number. -/
def handler? (a : App) (i : Nat) : Option Handler := a.cells[i]?.bind (·.handler?)

/-- The script of an extension that follows one. -/
def Extension.script? : Extension → Option ExtensionScript
  | .scripted script => some script
  | .responder => none

/-- The rules by which a side handles messages. -/
def rules? (a : App) : Side → Option MessageRules
  | .tester => a.tester.map (·.rules)
  | .engine => a.extension.script?.map (·.rules)

/-- What is seen of a callback: what is shown on its side when it begins, and the script that it
follows then. -/
structure Role where
  side : Side
  opening : Event
  script : List Action := []

/-- A role is played: its opening is shown on its side, and then what is performed of its script. -/
structure Role.Played (role : Role) (a a' : App) : Prop where
  shows : ∃ actions, a'.events role.side = a.events role.side ++ role.opening :: actions ∧
    actions.map Event.action? = (performed role.script).map some
  elsewhere : ∀ other ≠ role.side, a'.events other = a.events other

/-- What is shown between two applications: a role, or nothing. -/
structure Shows (role? : Option Role) (a a' : App) : Prop where
  plays : ∀ role, role? = some role → role.Played a a'
  silent : role? = none → ∀ side, a'.events side = a.events side

/-- The call of a handler. -/
structure Call where
  cell : Nat
  handler : Handler
  number : Nat
  outcome : Outcome
  terminal : Bool

namespace Call

/-- The role of a handler that is called. A foreign host is told a status, and the number of a new
message for a result. -/
def role? (a : App) (call : Call) : Option Role :=
  match call.handler with
  | .scripted side tag followUp _ _ =>
    some { side, opening := .outcome tag call.number call.outcome, script := followUp }
  | .foreign i (some (_, callback)) =>
    let (status, result) := ((Program.presentOutcome i call.outcome).run a).1
    some { side := .tester, opening := .callback callback.tag status result }
  | .foreign _ none | .promise _ | .silent => none

/-- Counts a call of the tester. -/
def observed (call : Call) (c : Counters) : Counters :=
  if call.handler.side = .tester then c.observe call.outcome else c

end Call

/-- What a delivery leaves behind at its continuation. -/
def visiting (outcome : Outcome) (terminal called : Bool) : List Visit :=
  .arrival outcome terminal called :: if called then [.returned] else []

/-- A worker runs a job that it has taken from its queue. -/
structure Performance where
  app : App
  side : Side
  job : Job

namespace Performance

/-- The application when the job has ended. -/
def after (p : Performance) : App := ((Program.runJob p.side p.job).run p.app).2

/-- The call of a handler, if the job brings an outcome and finds the handler waiting. -/
def call? (p : Performance) : Option Call :=
  match p.job with
  | .resume i outcome terminal =>
    ((p.app.cells.getD i { slot := .released }).takeOut outcome terminal).1.map
      fun (handler, number) => { cell := i, handler, number, outcome, terminal }
  | .arrival _ | .initExtension _ | .startExtension | .phase _ | .completion _ => none

/-- The role of a job. An extension that answers pings has none, nor has a side that is not
there. -/
def role? (p : Performance) : Option Role :=
  match p.job with
  | .resume .. => p.call?.bind (·.role? p.app)
  | .arrival msg => (p.app.rules? p.side).map fun rules =>
    { side := p.side, opening := .message msg, script := (rules.match? msg).getD [] }
  | .initExtension properties => p.app.extension.script?.map fun script =>
    { side := .engine, opening := .initExtension p.app.name properties, script := script.onInit }
  | .startExtension => (p.app.extension.script?.bind (·.onStart)).map fun script =>
    { side := .engine, opening := .startExtension, script }
  | .phase callback => p.app.tester.map fun script =>
    { side := .tester, opening := .phase callback p.app.lifecycle.phase,
      script := (callback.actions? script).getD [] }
  | .completion (.scripted ack) =>
    some { side := .tester, opening := .ack ack.tag, script := ack.followUp }
  | .completion (.foreign _ _ callback) =>
    some { side := .tester, opening := .callback callback.tag .ok none }
  | .completion (.promise _) => none

/-- What happens at a continuation, if it exists. -/
def visits (p : Performance) (i : Nat) : List Visit :=
  match p.job with
  | .resume k outcome terminal =>
    if k = i ∧ i < p.app.cells.size then visiting outcome terminal p.call?.isSome else []
  | .arrival _ | .initExtension _ | .startExtension | .phase _ | .completion _ => []

/-- What is counted. -/
def observed (p : Performance) (c : Counters) : Counters :=
  match p.call? with
  | some call => call.observed c
  | none => c

/-- A job is carried out. -/
structure CarriedOut (p : Performance) : Prop where
  shows : Shows p.role? p.app p.after
  counts : p.after.counters.received = (p.observed p.app.counters).received
  keeps : ∀ call i, p.call? = some call → call.handler = .promise i →
    i < p.app.promises.size → p.after.promises[i]? = some (.outcome call.outcome)
  answers : ∀ msg, p.side = .engine → p.app.extension = .responder → p.job = .arrival msg →
    p.after = ((Responder.onMessage msg).run p.app).2
  visits : ∀ i, p.after.history i = p.app.history i ++ p.visits i
  size : p.app.cells.size ≤ p.after.cells.size
  handlers : ∀ i, i < p.app.cells.size → ∀ handler, p.after.handler? i = some handler →
    p.app.handler? i = some handler

end Performance

section Roles

variable {side : Side} {opening : Event} {script : List Action} {role : Role} {role? : Option Role}
  {a a' b b' : App}

/-- What is shown is told by the events alone. -/
theorem Role.Played.of_events (h : role.Played a a') (hb : ∀ side, b.events side = a.events side)
    (hb' : ∀ side, b'.events side = a'.events side) : role.Played b b' where
  shows := by
    obtain ⟨actions, hevents, hactions⟩ := h.shows
    exact ⟨actions, by rw [hb', hb, hevents], hactions⟩
  elsewhere other hother := by rw [hb', hb, h.elsewhere other hother]

theorem Shows.of_events (h : Shows role? a a') (hb : ∀ side, b.events side = a.events side)
    (hb' : ∀ side, b'.events side = a'.events side) : Shows role? b b' where
  plays role hrole := (h.plays role hrole).of_events hb hb'
  silent hnone side := by rw [hb', hb, h.silent hnone]

theorem Mute.shows (h : Mute a a') : Shows none a a' := ⟨nofun, fun _ => h.events⟩

/-- An opening is shown, and then a script is enacted. -/
theorem Enacts.shown (h : Enacts side script (a.addEvent side opening) a') :
    Shows (some { side, opening, script }) a a' := by
  refine ⟨fun role hrole => ?_, nofun⟩
  cases hrole
  obtain ⟨actions, hevents, hactions⟩ := h.shows
  constructor
  · refine ⟨actions, ?_, hactions⟩
    rw [hevents, events_addEvent, if_pos rfl, List.append_assoc]
    rfl
  · intro other hother
    rw [h.elsewhere other hother, events_addEvent, if_neg hother, List.append_nil]

/-- A callback without a script shows its opening. -/
theorem shows_addEvent (a : App) (side : Side) (opening : Event) :
    Shows (some { side, opening }) a (a.addEvent side opening) :=
  ((Mute.refl _).enacts rfl).shown

end Roles

section Handlers

variable {a : App}

/-- What a host is told does not depend on anything but its boundary. -/
theorem fst_run_presentOutcome {a b : App} (h : b.boundaries = a.boundaries) (i : Nat)
    (outcome : Outcome) : ((Program.presentOutcome i outcome).run b).1 =
      ((Program.presentOutcome i outcome).run a).1 := by
  cases outcome with
  | error fault => rfl
  | ok result =>
    change (Status.ok, some ((b.boundaries.getD i {}).messages.insert (.cmdResult result)).1) =
      (Status.ok, some ((a.boundaries.getD i {}).messages.insert (.cmdResult result)).1)
    rw [h]

/-- A call is counted, and nothing else changes. -/
theorem observing_eq (a : App) (side : Side) (outcome : Outcome) :
    a.observing side outcome =
      { a with counters := if side = .tester then a.counters.observe outcome else a.counters } := by
  rw [observing]
  split
  · rfl
  · rfl

theorem Call.role?_of_boundaries {b : App} (h : b.boundaries = a.boundaries) (call : Call) :
    call.role? b = call.role? a := by
  obtain ⟨cell, handler, number, outcome, terminal⟩ := call
  cases handler with
  | scripted side tag followUp panicOn current => rfl
  | promise i => rfl
  | silent => rfl
  | foreign i listener =>
    cases listener with
    | none => rfl
    | some listener =>
      exact congrArg (fun told : Status × Option Handle => some ({
        side := .tester
        opening := .callback listener.2.tag told.1 told.2 } : Role)) (fst_run_presentOutcome h i _)

/-- A host is called back. -/
theorem shows_callBack {b : App} (h : Mute a b) (callback : Callback) (status : Status)
    (result : Option Handle) :
    Shows (some { side := .tester, opening := .callback callback.tag status result }) a
        ((Program.callBack callback status result).run b).2 ∧
      Respects a ((Program.callBack callback status result).run b).2 :=
  ⟨(shows_addEvent b .tester _).of_events (fun side => (h.events side).symm) fun _ => rfl,
    h.toRespects.trans (respects_addEvent b .tester (.callback callback.tag status result))⟩

/-- A host is called back, or the message of a result is dropped again. -/
theorem shows_deliverForeign (a : App) (cell i : Nat) (listener : Option (Handle × Callback))
    (number : Nat) (outcome : Outcome) (terminal : Bool) :
    let call : Call := { cell, handler := .foreign i listener, number, outcome, terminal }
    Shows (call.role? a) a ((Program.deliverForeign i listener outcome).run a).2 ∧
      Respects a ((Program.deliverForeign i listener outcome).run a).2 := by
  intro call
  cases listener with
  | none =>
    have hmutes : Mutes _ (Program.deliverForeign i none outcome) := by
      apply composes_mutes.bind (makings_mutes.presentOutcome i outcome)
      rintro ⟨status, result⟩
      cases result with
      | none => exact composes_mutes.pure _
      | some message => exact makings_mutes.answer (makings_mutes.boundary_step i _)
    exact ⟨(hmutes a).shows, (hmutes a).toRespects⟩
  | some listener =>
    have hpresent := makings_mutes.presentOutcome i outcome a
    obtain ⟨handle, callback⟩ := listener
    rw [Program.deliverForeign, run_bind]
    dsimp only
    cases outcome.isTerminal with
    | true =>
      have hreleased := makings_mutes.boundary_step i
        (fun b => ((), { b with callbacks := b.callbacks.erase handle }))
        ((Program.presentOutcome i outcome).run a).2
      exact shows_callBack (hpresent.trans hreleased) callback _ _
    | false => exact shows_callBack hpresent callback _ _

/-- A handler plays its role. -/
theorem shows_handling (a : App) (call : Call) :
    Shows (call.role? a) a ((handling call.handler call.number call.outcome).run a).2 ∧
      Respects a ((handling call.handler call.number call.outcome).run a).2 := by
  obtain ⟨cell, handler, number, outcome, terminal⟩ := call
  cases handler with
  | scripted side tag followUp panicOn current =>
    have henacts := enacts_actAll side true current followUp
      (a.addEvent side (.outcome tag number outcome))
    have hrun : ((handling (.scripted side tag followUp panicOn current) number outcome).run a).2 =
        ((Program.actAll side true current followUp).run
          (a.addEvent side (.outcome tag number outcome))).2 := by
      have hemit : (Program.emit side (.outcome tag number outcome)).run a =
          ((), a.addEvent side (.outcome tag number outcome)) := rfl
      rw [handling, run_bind, hemit, run_bind]
      cases ((Program.actAll side true current followUp).run
          (a.addEvent side (.outcome tag number outcome))).1 with
      | error panic => rfl
      | ok _ => rfl
    rw [hrun]
    exact ⟨henacts.shown, (respects_addEvent a side _).trans henacts.toRespects⟩
  | promise i =>
    have hmute := makings_mutes.settlePromise i (.outcome outcome) a
    exact ⟨hmute.shows, hmute.toRespects⟩
  | foreign i listener => exact shows_deliverForeign a cell i listener number outcome terminal
  | silent => exact ⟨(Mute.refl a).shows, .refl a⟩

end Handlers

section Jobs

variable {a : App}

/-- A message is shown and handled by rules. -/
theorem enacts_followRules (a : App) (side : Side) (name : String) (rules : MessageRules)
    (msg : Message) :
    Enacts side ((rules.match? msg).getD []) (a.addEvent side (.message msg))
      ((Program.followRules side name rules msg).run a).2 := by
  have hemit : (Program.emit side (.message msg)).run a = ((), a.addEvent side (.message msg)) := rfl
  rw [Program.followRules, run_bind, hemit]
  cases rules.match? msg with
  | some script => exact enacts_actAll side true (Program.currentOf msg) script _
  | none => exact (makings_mutes.refuse side name msg _).enacts rfl

/-- What a job that brings no outcome shows. -/
theorem shows_runJob (a : App) (side : Side) {job : Job} (hother : job.isDelivery = false) :
    Shows ({ app := a, side, job } : Performance).role? a ((Program.runJob side job).run a).2 ∧
      Respects a ((Program.runJob side job).run a).2 := by
  have hmute {p : Program (Except Panic Unit)} (hp : Mutes _ p) :
      Shows none a (p.run a).2 ∧ Respects a (p.run a).2 := ⟨(hp a).shows, (hp a).toRespects⟩
  have henacts {side : Side} {opening : Event} {script : List Action} {a' : App}
      (h : Enacts side script (a.addEvent side opening) a') :
      Shows (some { side, opening, script }) a a' ∧ Respects a a' :=
    ⟨h.shown, (respects_addEvent a side opening).trans h.toRespects⟩
  have hget : (get : Program App).run a = (a, a) := rfl
  have hanswer : Mutes _ (pure (.ok ()) : Program (Except Panic Unit)) := composes_mutes.pure _
  dsimp only [Performance.role?]
  cases job with
  | resume i outcome terminal => cases hother
  | arrival msg =>
    rw [Program.runJob, Program.handleArrival, run_bind, hget]
    cases side with
    | tester =>
      dsimp only [rules?]
      cases a.tester with
      | none => exact hmute hanswer
      | some script => exact henacts (enacts_followRules a .tester "tester" script.rules msg)
    | engine =>
      dsimp only [rules?]
      cases a.extension with
      | scripted script => exact henacts (enacts_followRules a .engine a.name script.rules msg)
      | responder => exact hmute (makings_mutes.answer (makings_mutes.onMessage msg))
  | initExtension properties =>
    rw [Program.runJob, Program.initExtension, run_bind, hget]
    dsimp only
    cases a.extension with
    | scripted script => exact henacts (enacts_actAll .engine true none script.onInit _)
    | responder => exact hmute (makings_mutes.answer (makings_mutes.note fun _ => rfl))
  | startExtension =>
    rw [Program.runJob, Program.startExtension, run_bind, hget]
    dsimp only
    cases a.extension with
    | responder => exact hmute (makings_mutes.answer makings_mutes.greet)
    | scripted script =>
      dsimp only [Extension.script?, Option.bind_some]
      cases script.onStart with
      | none => exact hmute hanswer
      | some actions => exact henacts (enacts_actAll .engine true none actions _)
  | phase callback =>
    rw [Program.runJob, Program.runPhase, run_bind, hget]
    dsimp only
    cases a.tester with
    | none => exact hmute hanswer
    | some script =>
      have hemit : (Program.emit .tester (.phase callback a.lifecycle.phase)).run a =
          ((), a.addEvent .tester (.phase callback a.lifecycle.phase)) := rfl
      dsimp only [Option.map_some]
      rw [run_bind, hemit]
      cases callback.actions? script with
      | some actions => exact henacts (enacts_actAll .tester true none actions _)
      | none =>
        have hdone : Mutes _ (do
            let _ ← Program.lifecycle.step callback.acknowledge
            return (.ok () : Except Panic Unit)) :=
          makings_mutes.answer (makings_mutes.acknowledge callback)
        exact henacts ((hdone _).enacts rfl)
  | completion completion =>
    cases completion with
    | scripted ack => exact henacts (enacts_actAll .tester true none ack.followUp _)
    | promise i => exact hmute (makings_mutes.answer (makings_mutes.settlePromise i _))
    | foreign i handle callback =>
      have hreleased := makings_mutes.boundary_step i
        (fun b => ((), { b with callbacks := b.callbacks.erase handle })) a
      exact shows_callBack hreleased callback .ok none

/-- Nothing happens at continuations that are left alone. -/
theorem Respects.history {a' : App} (h : Respects a a') (i : Nat) : a'.history i = a.history i := by
  rw [App.history, App.history]
  cases hfound : a.cells[i]? with
  | some c => rw [h.cells i c hfound]
  | none =>
    cases hfresh : a'.cells[i]? with
    | none => rfl
    | some c =>
      obtain ⟨handler, rfl⟩ := h.fresh i c hfresh hfound
      rfl

theorem Respects.handler? {a' : App} (h : Respects a a') {i : Nat} (hi : i < a.cells.size) :
    a'.handler? i = a.handler? i := by
  rw [App.handler?, App.handler?, Array.getElem?_eq_getElem hi,
    h.cells i _ (Array.getElem?_eq_getElem hi)]

/-- A job that brings no outcome is carried out. -/
theorem carriedOut_of_other (a : App) (side : Side) {job : Job} (hother : job.isDelivery = false) :
    ({ app := a, side, job } : Performance).CarriedOut := by
  obtain ⟨hshows, hrespects⟩ := shows_runJob a side hother
  have hcall : ({ app := a, side, job } : Performance).call? = none := by
    cases job with
    | resume i outcome terminal => cases hother
    | _ => rfl
  have hvisits (i : Nat) : ({ app := a, side, job } : Performance).visits i = [] := by
    cases job with
    | resume i outcome terminal => cases hother
    | _ => rfl
  constructor
  · exact hshows
  · rw [Performance.observed, hcall]
    exact hrespects.received
  · intro call i hcalled
    rw [hcall] at hcalled
    cases hcalled
  · rintro msg rfl hresponder rfl
    have hget : (get : Program App).run a = (a, a) := rfl
    dsimp only at hresponder
    dsimp only [Performance.after]
    rw [Program.runJob, Program.handleArrival, run_bind, hget]
    dsimp only
    rw [hresponder]
    rfl
  · intro i
    rw [hvisits, List.append_nil]
    exact hrespects.history i
  · exact hrespects.size
  · intro i hi handler hwaits
    rw [← hrespects.handler? hi]
    exact hwaits

/-- A delivery that finds no handler leaves only its mark. -/
theorem run_resume_of_none {i : Nat} {outcome : Outcome} {terminal : Bool} (side : Side)
    (hnone : ((a.cells.getD i { slot := .released }).takeOut outcome terminal).1 = none) :
    ((Program.runJob side (.resume i outcome terminal)).run a).2 =
      a.setCell i ((a.cells.getD i { slot := .released }).takeOut outcome terminal).2 := by
  rw [Program.runJob, Continuation.resume, run_bind, run_cell_step, hnone]
  rfl

/-- A delivery takes the handler out, calls it and puts it back. -/
theorem run_resume_of_some {i : Nat} {outcome : Outcome} {terminal : Bool} (side : Side)
    {handler : Handler} {n : Nat} {called : App}
    (hsome : ((a.cells.getD i { slot := .released }).takeOut outcome terminal).1 =
      some (handler, n))
    (hcalled : ((handling handler n outcome).run ((a.setCell i ((a.cells.getD i
      { slot := .released }).takeOut outcome terminal).2).observing handler.side outcome)).2 =
      called) :
    ((Program.runJob side (.resume i outcome terminal)).run a).2 =
      called.setCell i ((called.cells.getD i { slot := .released }).putBack terminal handler) := by
  rw [Program.runJob, Continuation.resume, run_bind, run_cell_step, hsome]
  dsimp only
  rw [Continuation.callOut, run_bind, run_callHandler, ← hcalled]
  rfl

theorem handler?_of_getElem? {a : App} {i : Nat} {c : Continuation Handler}
    (hfound : a.cells[i]? = some c) : a.handler? i = c.handler? := by
  rw [App.handler?, hfound]
  rfl

theorem getD_cells {a : App} {i : Nat} (hi : i < a.cells.size) :
    a.cells.getD i { slot := .released } = a.cells[i] := by
  rw [Array.getD_eq_getD_getElem?, Array.getElem?_eq_getElem hi]
  rfl

/-- What a delivery does at its own continuation, and at no other. -/
theorem history_delivery {side : Side} {i : Nat} {outcome : Outcome} {terminal called : Bool}
    (hcall : ({ app := a, side, job := .resume i outcome terminal } : Performance).call?.isSome =
      called) (hi : i < a.cells.size) {b : App} {c c' : Continuation Handler}
    (hfound : b.cells[i]? = some c)
    (hhistory : c'.history = a.history i ++ visiting outcome terminal called)
    (hother : ∀ k, i ≠ k → b.history k = a.history k) (k : Nat) :
    (b.setCell i c').history k = a.history k ++
      ({ app := a, side, job := .resume i outcome terminal } : Performance).visits k := by
  dsimp only [Performance.visits]
  rw [hcall, history_setCell hfound]
  by_cases heq : i = k
  · subst heq
    rw [if_pos rfl, if_pos ⟨rfl, hi⟩, hhistory]
  · rw [if_neg heq, if_neg fun h => heq h.1, List.append_nil, hother k heq]

/-- A delivery that finds no handler is carried out. -/
theorem carriedOut_of_none {i : Nat} {outcome : Outcome} {terminal : Bool} (side : Side)
    (hnone : ((a.cells.getD i { slot := .released }).takeOut outcome terminal).1 = none) :
    ({ app := a, side, job := .resume i outcome terminal } : Performance).CarriedOut := by
  have hcall : ({ app := a, side, job := .resume i outcome terminal } : Performance).call? =
      none := by
    rw [Performance.call?, Option.map_eq_none_iff]
    exact hnone
  have hafter : ({ app := a, side, job := .resume i outcome terminal } : Performance).after =
      a.setCell i ((a.cells.getD i { slot := .released }).takeOut outcome terminal).2 :=
    run_resume_of_none side hnone
  constructor
  · dsimp only [Performance.role?]
    rw [hcall, hafter]
    refine ⟨nofun, fun _ other => ?_⟩
    cases other
    · rfl
    · rfl
  · rw [Performance.observed, hcall, hafter]
    rfl
  · intro call k hcalled
    rw [hcall] at hcalled
    cases hcalled
  · intro msg _ _ hjob
    cases hjob
  · intro k
    rw [hafter]
    rcases Nat.lt_or_ge i a.cells.size with hi | hi
    · have hfound := Array.getElem?_eq_getElem hi
      refine history_delivery (congrArg Option.isSome hcall) hi hfound ?_ (fun _ _ => rfl) k
      rw [getD_cells hi] at hnone ⊢
      rw [history_of_getElem? hfound]
      rcases takeOut_cases a.cells[i] outcome terminal with ⟨_, _, -, hsome, -⟩ | ⟨-, hhistory⟩
      · rw [hnone] at hsome
        cases hsome
      · exact hhistory
    · rw [setCell_of_size_le hi]
      dsimp only [Performance.visits]
      rw [if_neg, List.append_nil]
      rintro ⟨rfl, hk⟩
      exact absurd hk (Nat.not_lt.mpr hi)
  · rw [hafter]
    exact (persists_setCell a i _).cells
  · intro k hk handler hwaits
    rw [hafter] at hwaits
    have hfound := Array.getElem?_eq_getElem hk
    by_cases heq : i = k
    · subst heq
      rw [handler?_of_getElem? (getElem?_setCell_self hfound _), Continuation.handler?,
        slot_takeOut_of_none hnone, getD_cells hk] at hwaits
      rw [handler?_of_getElem? hfound]
      exact hwaits
    · rw [← hwaits, App.handler?, App.handler?, getElem?_setCell_of_ne heq]

/-- A delivery that finds the handler is carried out. -/
theorem carriedOut_of_some {i : Nat} {outcome : Outcome} {terminal : Bool} (side : Side)
    {handler : Handler} {n : Nat}
    (hsome : ((a.cells.getD i { slot := .released }).takeOut outcome terminal).1 =
      some (handler, n)) :
    ({ app := a, side, job := .resume i outcome terminal } : Performance).CarriedOut := by
  set c := a.cells.getD i { slot := .released }
  have htaken := (takeOut_cases c outcome terminal).resolve_right fun h => by
    rw [hsome] at h
    cases h.1
  obtain ⟨_, _, hslot, heq, hhistory⟩ := htaken
  cases hsome.symm.trans heq
  have hfound : a.cells[i]? = some c := getElem?_of_slot hslot
  set call : Call := { cell := i, handler, number := n, outcome, terminal }
  have hcall : ({ app := a, side, job := .resume i outcome terminal } : Performance).call? =
      some call := by
    rw [Performance.call?, Option.map_eq_some_iff]
    exact ⟨_, hsome, rfl⟩
  -- the handler is called when it has been taken out and its call was counted
  set b := (a.setCell i (c.takeOut outcome terminal).2).observing handler.side outcome
  obtain ⟨called, hcalled⟩ : ∃ called, ((handling handler n outcome).run b).2 = called := ⟨_, rfl⟩
  have hafter : ({ app := a, side, job := .resume i outcome terminal } : Performance).after =
      called.setCell i ((called.cells.getD i { slot := .released }).putBack terminal handler) :=
    run_resume_of_some side hsome hcalled
  obtain ⟨hshows, hrespects⟩ := shows_handling b call
  change Respects b ((handling handler n outcome).run b).2 at hrespects
  change Shows _ b ((handling handler n outcome).run b).2 at hshows
  rw [hcalled] at hrespects hshows
  have hb : b = { a.setCell i (c.takeOut outcome terminal).2 with
      counters := call.observed a.counters } := observing_eq _ _ _
  have hsize : a.cells.size ≤ b.cells.size := by
    rw [hb]
    exact (persists_setCell a i _).cells
  have hheld : called.cells[i]? = some (c.takeOut outcome terminal).2 := by
    apply hrespects.cells i
    rw [hb]
    exact getElem?_setCell_self hfound _
  have hgetD : called.cells.getD i { slot := .released } = (c.takeOut outcome terminal).2 := by
    rw [Array.getD_eq_getD_getElem?, hheld]
    rfl
  have hother (k : Nat) (hk : i ≠ k) : called.history k = a.history k := by
    rw [hrespects.history, hb]
    exact congrArg (fun c => (Option.map (·.history) c).getD []) (getElem?_setCell_of_ne hk _)
  have hboundaries : b.boundaries = a.boundaries := by rw [hb]; rfl
  rw [hgetD] at hafter
  constructor
  · dsimp only [Performance.role?]
    rw [hcall, hafter, Option.bind_some, ← call.role?_of_boundaries hboundaries]
    refine hshows.of_events (fun other => ?_) fun other => ?_
    · rw [hb]
      cases other
      · rfl
      · rfl
    · cases other
      · rfl
      · rfl
  · rw [Performance.observed, hcall, hafter]
    rw [hb] at hrespects
    exact hrespects.received
  · intro other k hother hpromise hk
    rw [hcall] at hother
    cases hother
    change handler = .promise k at hpromise
    subst hpromise
    rw [hafter, ← hcalled, hb]
    change (a.promises.setIfInBounds k (.outcome outcome))[k]? = _
    rw [Array.getElem?_setIfInBounds, if_pos rfl, if_pos hk]
  · intro msg _ _ hjob
    cases hjob
  · intro k
    rw [hafter]
    refine history_delivery (congrArg Option.isSome hcall) (lt_size_of_getElem? hfound) hheld ?_
      hother k
    rw [Continuation.history_putBack, hhistory, history_of_getElem? hfound, List.append_assoc]
    rfl
  · rw [hafter]
    exact Nat.le_trans (Nat.le_trans hsize hrespects.size) (persists_setCell called i _).cells
  · intro k hk other hwaits
    rw [hafter] at hwaits
    by_cases heq : i = k
    · subst heq
      rw [handler?_of_getElem? (getElem?_setCell_self hheld _)] at hwaits
      rw [handler?_of_getElem? hfound, Continuation.handler?, hslot]
      cases terminal with
      | true => cases hwaits
      | false => exact hwaits
    · rw [App.handler?, getElem?_setCell_of_ne heq] at hwaits
      have hsame := (hrespects.handler? (Nat.lt_of_lt_of_le hk hsize)).symm.trans hwaits
      rw [hb, App.handler?] at hsame
      rw [← hsame, App.handler?, ← getElem?_setCell_of_ne heq]

/-- Every job is carried out. -/
theorem Performance.carriedOut (p : Performance) : p.CarriedOut := by
  obtain ⟨a, side, job⟩ := p
  cases hdelivery : job.isDelivery with
  | false => exact carriedOut_of_other a side hdelivery
  | true =>
    cases job with
    | resume i outcome terminal =>
      cases hcall : ((a.cells.getD i { slot := .released }).takeOut outcome terminal).1 with
      | none => exact carriedOut_of_none side hcall
      | some call => exact carriedOut_of_some side hcall
    | _ => cases hdelivery

end Jobs

end App
end Switchboard
