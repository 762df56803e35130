import Switchboard.Proofs.App.Performances
/-!
# The chronicle of an application

Whatever turns are taken, the jobs that workers run in them make up a chronicle. It tells in which
order callbacks were seen on each side, what was counted of outcomes, and all that has happened at
every continuation; and a handler that is called is the one that the continuation was made for.
-/
namespace Switchboard.App

namespace Performance

/-- What a performance shows on a side when it begins. -/
def opening? (p : Performance) (side : Side) : Option Event :=
  p.role?.bind fun role => if role.side = side then some role.opening else none

end Performance

/-- What may be shown when a job begins. -/
inductive Opens : Job → Event → Prop
  | outcome (i : Nat) (outcome : Outcome) (terminal : Bool) (tag : String) (number : Nat)
      (told : Outcome) : Opens (.resume i outcome terminal) (.outcome tag number told)
  | callback (i : Nat) (outcome : Outcome) (terminal : Bool) (tag : String) (status : Status)
      (result : Option Handle) :
      Opens (.resume i outcome terminal) (.callback tag status result)
  | message (msg : Message) : Opens (.arrival msg) (.message msg)
  | initExtension (name : String) (properties : Json) :
      Opens (.initExtension properties) (.initExtension name properties)
  | startExtension : Opens .startExtension .startExtension
  | phase (begun : PhaseCallback) (phase : Phase) : Opens (.phase begun) (.phase begun phase)
  | ack (ack : Ack) : Opens (.completion (.scripted ack)) (.ack ack.tag)
  | acknowledged (i : Nat) (handle : Handle) (callback : Callback) :
      Opens (.completion (.foreign i handle callback)) (.callback callback.tag .ok none)

/-- No job begins with an action. -/
theorem Opens.action? {job : Job} {event : Event} (h : Opens job event) : event.action? = none := by
  cases h with
  | _ => rfl

namespace Performance

/-- Whatever role is played, its beginning is one that the job may have. -/
theorem opens {p : Performance} {role : Role} (h : p.role? = some role) :
    Opens p.job role.opening := by
  obtain ⟨a, side, job⟩ := p
  cases job with
  | resume i outcome terminal =>
    obtain ⟨⟨cell, handler, number, told, ended⟩, -, hrole⟩ := Option.bind_eq_some_iff.mp h
    cases handler with
    | scripted side tag followUp panicOn current =>
      cases hrole
      exact .outcome ..
    | foreign k listener =>
      cases listener with
      | none => cases hrole
      | some listener =>
        cases hrole
        exact .callback ..
    | promise k => cases hrole
    | silent => cases hrole
  | arrival msg =>
    obtain ⟨rules, -, rfl⟩ := Option.map_eq_some_iff.mp h
    exact .message msg
  | initExtension properties =>
    obtain ⟨script, -, rfl⟩ := Option.map_eq_some_iff.mp h
    exact .initExtension _ properties
  | startExtension =>
    obtain ⟨script, -, rfl⟩ := Option.map_eq_some_iff.mp h
    exact .startExtension
  | phase callback =>
    obtain ⟨script, -, rfl⟩ := Option.map_eq_some_iff.mp h
    exact .phase callback _
  | completion completion =>
    cases completion with
    | scripted ack =>
      cases h
      exact .ack ack
    | foreign i handle callback =>
      cases h
      exact .acknowledged i handle callback
    | promise i => cases h

theorem opens_of_opening? {p : Performance} {side : Side} {event : Event}
    (h : p.opening? side = some event) : Opens p.job event := by
  obtain ⟨role, hrole, hside⟩ := Option.bind_eq_some_iff.mp h
  split at hside
  · cases hside
    exact opens hrole
  · cases hside

end Performance

/-- The events that are no actions: the beginnings of callbacks. -/
def openings (a : App) (side : Side) : List Event := (a.events side).filter (·.action?.isNone)

/-- Between two applications there were these performances, and no others. -/
structure Chronicles (ps : List Performance) (a a' : App) : Prop where
  openings : ∀ side, a'.openings side = a.openings side ++ ps.filterMap (·.opening? side)
  received : a'.counters.received = (ps.foldl (fun c p => p.observed c) a.counters).received
  history : ∀ i, a'.history i = a.history i ++ ps.flatMap (·.visits i)
  size : a.cells.size ≤ a'.cells.size
  handlers : ∀ i, i < a.cells.size → ∀ handler, a'.handler? i = some handler →
    a.handler? i = some handler
  calls : ∀ p ∈ ps, ∀ call, p.call? = some call → call.cell < a.cells.size →
    a.handler? call.cell = some call.handler

section Chronicles

variable {a a' a'' : App} {ps qs : List Performance} {α : Type}

theorem received_observe {c c' : Counters} (h : c.received = c'.received) (outcome : Outcome) :
    (c.observe outcome).received = (c'.observe outcome).received := by
  simp only [Counters.received, Counters.mk.injEq, true_and, and_true] at h
  obtain ⟨hresults, hintermediate, hfailed, hcancelled⟩ := h
  cases outcome with
  | ok result =>
    dsimp only [Counters.observe]
    split
    · simp [Counters.received, hresults, hintermediate, hfailed, hcancelled]
    · simp [Counters.received, hresults, hintermediate, hfailed, hcancelled]
  | error fault =>
    dsimp only [Counters.observe]
    split
    · simp [Counters.received, hresults, hintermediate, hfailed, hcancelled]
    · simp [Counters.received, hresults, hintermediate, hfailed, hcancelled]

theorem Performance.received_observed {c c' : Counters} (h : c.received = c'.received)
    (p : Performance) : (p.observed c).received = (p.observed c').received := by
  rw [observed, observed]
  cases p.call? with
  | none => exact h
  | some call =>
    dsimp only [Call.observed]
    split
    · exact received_observe h call.outcome
    · exact h

theorem received_foldl {c c' : Counters} (h : c.received = c'.received) (ps : List Performance) :
    (ps.foldl (fun c p => p.observed c) c).received =
      (ps.foldl (fun c p => p.observed c) c').received := by
  induction ps generalizing c c' with
  | nil => exact h
  | cons p ps ih => exact ih (p.received_observed h)

/-- A handler is called by the delivery of an outcome. -/
theorem Performance.job_of_call? {p : Performance} {call : Call} (h : p.call? = some call) :
    p.job = .resume call.cell call.outcome call.terminal := by
  obtain ⟨a, side, job⟩ := p
  cases job with
  | resume i outcome terminal =>
    obtain ⟨⟨handler, n⟩, -, rfl⟩ := Option.map_eq_some_iff.mp h
    rfl
  | _ => cases h

/-- The handler that is called was waiting. -/
theorem Performance.handler?_of_call? {p : Performance} {call : Call} (h : p.call? = some call) :
    p.app.handler? call.cell = some call.handler := by
  obtain ⟨a, side, job⟩ := p
  cases job with
  | resume i outcome terminal =>
    obtain ⟨⟨handler, n⟩, hsome, rfl⟩ := Option.map_eq_some_iff.mp h
    rcases takeOut_cases (a.cells.getD i { slot := .released }) outcome terminal with
      ⟨_, _, hslot, heq, -⟩ | ⟨hnone, -⟩
    · cases hsome.symm.trans heq
      exact (handler?_of_getElem? (getElem?_of_slot hslot)).trans
        (by rw [Continuation.handler?, hslot])
    · cases hsome.symm.trans hnone
  | _ => cases h

theorem Chronicles.trans (h : Chronicles ps a a') (h' : Chronicles qs a' a'') :
    Chronicles (ps ++ qs) a a'' where
  openings side := by
    rw [h'.openings, h.openings, List.filterMap_append, List.append_assoc]
  received := by
    rw [h'.received, List.foldl_append]
    exact received_foldl h.received qs
  history i := by rw [h'.history, h.history, List.flatMap_append, List.append_assoc]
  size := Nat.le_trans h.size h'.size
  handlers i hi handler hwaits :=
    h.handlers i hi handler (h'.handlers i (Nat.lt_of_lt_of_le hi h.size) handler hwaits)
  calls p hp call hcall hi := by
    rcases List.mem_append.mp hp with hp | hp
    · exact h.calls p hp call hcall hi
    · exact h.handlers _ hi _ (h'.calls p hp call hcall (Nat.lt_of_lt_of_le hi h.size))

/-- What a script performs opens nothing. -/
theorem filter_actions {actions : List Event} {script : List Action}
    (h : actions.map Event.action? = (performed script).map some) :
    actions.filter (·.action?.isNone) = [] := by
  rw [List.filter_eq_nil_iff]
  intro event hevent
  have hshown : event.action? ∈ (performed script).map some := h ▸ List.mem_map_of_mem hevent
  obtain ⟨action, -, haction⟩ := List.mem_map.mp hshown
  rw [← haction]
  exact Bool.false_ne_true

theorem Respects.chronicles (h : Respects a a')
    (hopenings : ∀ side, a'.openings side = a.openings side) : Chronicles [] a a' where
  openings side := by rw [hopenings, List.filterMap_nil, List.append_nil]
  received := h.received
  history i := by rw [h.history, List.flatMap_nil, List.append_nil]
  size := h.size
  handlers i hi handler hwaits := by rw [← h.handler? hi, hwaits]
  calls _ hp := absurd hp List.not_mem_nil

theorem Mute.chronicles (h : Mute a a') : Chronicles [] a a' :=
  h.toRespects.chronicles fun side => by rw [App.openings, h.events, App.openings]

theorem Enacts.chronicles {side : Side} {script : List Action} (h : Enacts side script a a') :
    Chronicles [] a a' := by
  refine h.toRespects.chronicles fun other => ?_
  rw [App.openings, App.openings]
  by_cases heq : other = side
  · subst heq
    obtain ⟨actions, hevents, hactions⟩ := h.shows
    rw [hevents, List.filter_append, filter_actions hactions, List.append_nil]
  · rw [h.elsewhere other heq]

/-- What a performance shows when it begins is all that is not an action. -/
theorem Performance.openings_after (p : Performance) (side : Side) :
    p.after.openings side = p.app.openings side ++ (p.opening? side).toList := by
  obtain ⟨hplays, hsilent⟩ := p.carriedOut.shows
  rw [App.openings, App.openings, Performance.opening?]
  cases hrole : p.role? with
  | none => rw [hsilent hrole side, Option.bind_none, Option.toList_none, List.append_nil]
  | some role =>
    have hplayed := hplays role hrole
    rw [Option.bind_some]
    split
    · next heq =>
      subst heq
      obtain ⟨actions, hevents, hactions⟩ := hplayed.shows
      rw [hevents, List.filter_append, List.filter_cons_of_pos, filter_actions hactions]
      · rfl
      · rw [(Performance.opens hrole).action?]
        rfl
    · next hne =>
      rw [hplayed.elsewhere side (Ne.symm hne), Option.toList_none, List.append_nil]

theorem Performance.chronicles (p : Performance) : Chronicles [p] p.app p.after where
  openings side := by
    rw [p.openings_after, List.filterMap_cons]
    cases p.opening? side with
    | none => rfl
    | some event => rfl
  received := p.carriedOut.counts
  history i := by
    rw [p.carriedOut.visits, List.flatMap_cons, List.flatMap_nil, List.append_nil]
  size := p.carriedOut.size
  handlers := p.carriedOut.handlers
  calls q hq call hcall _ := by
    obtain rfl := List.mem_singleton.mp hq
    exact q.handler?_of_call? hcall

end Chronicles

/-! ## Turns -/

/-- The performance of a worker that begins with a task, if that is a job. -/
def performing (a : App) (side : Side) : Task Job → Option Performance
  | .job job => some { app := a, side, job }
  | .mark => none

/-- The performance that a turn is, if it is one. -/
def performance? (a : App) : Turn → Option Performance
  | .task side => (a.worker side).next.1.bind (performing (a.popped side) side)
  | .step .. | .host _ | .start _ | .answer _ | .flush _ | .abort _ | .shutDown _ | .leave => none

/-- The performances of turns that follow one another. -/
def performances (a : App) : List Turn → List Performance
  | [] => []
  | t :: turns => (a.performance? t).toList ++ (a.turned t).performances turns

section Turns

variable {a : App}

theorem mute_setWorker (a : App) (side : Side) (w : Worker Job) : Mute a (a.setWorker side w) := by
  cases side with
  | tester => exact mute_of_same rfl rfl rfl rfl
  | engine => exact mute_of_same rfl rfl rfl rfl

/-- What the program does itself opens nothing. -/
theorem chronicles_perform (a : App) {s : Step} (h : s.isOwn) :
    Chronicles [] a ((Program.perform s).run a).2 := by
  cases s with
  | dropApp => cases h
  | foreign call => cases h
  | act action =>
    have hmutes : Mutes _ (Program.perform (.act action)) := by
      apply composes_mutes.bind (makings_mutes.act .tester false none action)
      intro answer
      cases answer with
      | ok answer => exact composes_mutes.pure _
      | error panic => exact composes_mutes.pure _
    exact (hmutes a).chronicles
  | ext actions =>
    have hrun : ((Program.perform (.ext actions)).run a).2 =
        ((Program.actAll .engine false none actions).run a).2 := by
      rw [Program.perform, run_bind]
      cases ((Program.actAll .engine false none actions).run a).1 with
      | ok _ => rfl
      | error panic => rfl
    rw [hrun]
    exact (enacts_actAll .engine false none actions a).chronicles
  | asyncCmd tag cmd => exact (makings_mutes.answer (makings_mutes.sendCmdAsync tag cmd) a).chronicles
  | asyncData tag data =>
    exact (makings_mutes.answer (makings_mutes.sendDataAsync tag data) a).chronicles
  | poll tag => exact (makings_mutes.poll tag a).chronicles
  | dropFuture tag =>
    exact (makings_mutes.answer (makings_mutes.note fun _ => rfl) a).chronicles

/-- A worker that takes a job performs it. -/
theorem chronicles_advance (a : App) (side : Side) :
    Chronicles (a.performance? (.task side)).toList a ((Program.advance side).run a).2 := by
  have hpopped : Chronicles [] a (a.popped side) := (mute_setWorker a side _).chronicles
  have hnext : ((Program.worker side).step Worker.next).run a =
      ((a.worker side).next.1, a.popped side) := rfl
  rw [Program.advance, run_bind, hnext, performance?]
  rcases (a.worker side).next.1 with _ | ⟨job | _⟩
  · exact hpopped
  · have hended := (mute_setWorker ((Program.runJob side job).run (a.popped side)).2 side
      ((((Program.runJob side job).run (a.popped side)).2.worker side).count
        ((Program.runJob side job).run (a.popped side)).1)).chronicles
    exact (hpopped.trans (Performance.chronicles { app := a.popped side, side, job })).trans hended
  · exact hpopped.trans (mute_setWorker (a.popped side) side _).chronicles

/-- The chronicle of a turn. -/
theorem chronicles_turned (a : App) (t : Turn) :
    Chronicles (a.performance? t).toList a (a.turned t) := by
  have hmutes {p : Program Answer} (hp : Mutes _ p) : Chronicles [] a (p.run a).2 :=
    (hp a).chronicles
  cases t with
  | step s own => exact chronicles_perform a own
  | host call => exact hmutes (makings_mutes.foreign call)
  | task side => exact chronicles_advance a side
  | start tester =>
    refine hmutes (makings_mutes.answer ?_)
    apply composes_mutes.bind (mutes_of_same fun _ => ⟨rfl, rfl, rfl, rfl⟩)
    intro _
    apply composes_mutes.bind (makings_mutes.schedulePhase .start)
    intro _
    exact makings_mutes.answer (makings_mutes.accept .engine (.job .startExtension))
  | answer event => exact hmutes (makings_mutes.answer (makings_mutes.answerPhase event))
  | flush side => exact hmutes (makings_mutes.answer (makings_mutes.accept side .mark))
  | abort reason => exact hmutes (makings_mutes.answer (undisturbs_abort reason).mutes)
  | shutDown side => exact (mute_setWorker a side _).chronicles
  | leave => exact (mute_of_same rfl rfl rfl rfl : Mute a (a.turned .leave)).chronicles

/-- The chronicle of turns that follow one another. -/
theorem chronicles_turns (a : App) (turns : List Turn) :
    Chronicles (a.performances turns) a (turns.foldl turned a) := by
  induction turns generalizing a with
  | nil => exact (Mute.refl a).chronicles
  | cons t turns ih => exact (chronicles_turned a t).trans (ih (a.turned t))

end Turns

end Switchboard.App
