import Switchboard.Proofs.App.Workers
/-!
# Driving an application and dropping it

Between any two tasks and steps from outside the accounts of an application are sound and no call
is in progress. What is closed, shut down or empty for good stays so. A drop leaves an application
behind in which nothing waits and nothing is queued, and from then on nothing happens at any
continuation.
-/
namespace Switchboard.App

/-- Nothing waits and nothing can be sent, for good. -/
structure Closing (a : App) : Prop where
  table : a.router.table.closed = true
  entries : a.router.table.entries = []
  closed : a.router.closed = true
  routes : a.router.routes = []

/-- A worker was shut down and has run all its tasks. -/
structure Drained (a : App) (side : Side) : Prop where
  accepting : (a.worker side).accepting = false
  queue : (a.worker side).queue = []

/-- An application that was dropped. -/
structure Over (a : App) : Prop where
  dropped : a.dropped = true
  closing : a.Closing
  drained : ∀ side, a.Drained side

/-- What never comes back. -/
structure Wanes (a a' : App) : Prop where
  table : TablePersists a.router.table a'.router.table
  closed : a.router.closed = true → a'.router.closed = true
  routes : a.router.routes = [] → a'.router.routes = []
  accepting : ∀ side, (a.worker side).accepting = false → (a'.worker side).accepting = false
  queue : ∀ side, (a.worker side).accepting = false →
    (a'.worker side).queue <:+ (a.worker side).queue
  cells : a.cells.size ≤ a'.cells.size
  sent : a.sent <+: a'.sent
  final : a.router.table.closed = true → a'.sent = a.sent
  dropped : a.dropped = true → a'.dropped = true

/-- The invariant of an application between tasks and steps from outside. -/
structure Steady (a : App) : Prop where
  sound : a.Sound 0
  quiet : a.Quiet
  atEnd : a.dropped = true → a.Over

section Relations

variable {a b c : App}

theorem Wanes.closing (h : Wanes a b) (ha : a.Closing) : b.Closing where
  table := h.table.closed ha.table
  entries := h.table.empty ha.table ha.entries
  closed := h.closed ha.closed
  routes := h.routes ha.routes

theorem Wanes.drained (h : Wanes a b) {side : Side} (ha : a.Drained side) : b.Drained side where
  accepting := h.accepting side ha.accepting
  queue := by
    have hqueue := h.queue side ha.accepting
    rw [ha.queue] at hqueue
    exact List.suffix_nil.mp hqueue

theorem Wanes.stillOver (h : Wanes a b) (ha : a.Over) : b.Over where
  dropped := h.dropped ha.dropped
  closing := h.closing ha.closing
  drained side := h.drained (ha.drained side)

theorem Wanes.trans (h : Wanes a b) (h' : Wanes b c) : Wanes a c where
  table := h.table.trans h'.table
  closed hc := h'.closed (h.closed hc)
  routes hr := h'.routes (h.routes hr)
  accepting side hs := h'.accepting side (h.accepting side hs)
  queue side hs := (h'.queue side (h.accepting side hs)).trans (h.queue side hs)
  cells := Nat.le_trans h.cells h'.cells
  sent := h.sent.trans h'.sent
  final hc := (h'.final (h.table.closed hc)).trans (h.final hc)
  dropped hd := h'.dropped (h.dropped hd)

theorem Persists.wanes (h : Persists a b) : Wanes a b where
  table := h.table
  closed := h.closed
  routes := h.routes
  accepting side hs := (h.accepting side).trans hs
  queue side hs := ⟨[], h.queue side hs⟩
  cells := h.cells
  sent := h.sent
  final := h.final
  dropped hd := h.dropped.trans hd

/-- A change of one worker alone, which has no new tasks if it was shut down. -/
theorem wanes_setWorker {side : Side} {w : Worker Job}
    (haccepting : (a.worker side).accepting = false → w.accepting = false)
    (hqueue : (a.worker side).accepting = false → w.queue <:+ (a.worker side).queue) :
    Wanes a (a.setWorker side w) := by
  constructor
  · rw [router_setWorker]
    exact .refl _
  · rw [router_setWorker]
    exact fun hc => hc
  · rw [router_setWorker]
    exact fun hr => hr
  · intro other hother
    rw [worker_setWorker]
    split
    · next heq =>
      subst heq
      exact haccepting hother
    · exact hother
  · intro other hother
    rw [worker_setWorker]
    split
    · next heq =>
      subst heq
      exact hqueue hother
    · exact List.suffix_refl _
  · exact Nat.le_of_eq (congrArg Array.size (cells_setWorker a side w).symm)
  · exact ⟨[], by rw [List.append_nil, sent_setWorker]⟩
  · exact fun _ => sent_setWorker a side w
  · intro hdropped
    rw [dropped_setWorker]
    exact hdropped

end Relations

/-- What a program leaves behind: a steady application in which nothing has come back. Nothing
happens at any continuation after the end. -/
structure Leads (a a' : App) : Prop where
  steady : a'.Steady
  wanes : Wanes a a'
  history : a.Over → ∀ i, a'.history i = a.history i

/-- A program that keeps an application steady. -/
def Stays {α : Type} (p : Program α) : Prop := ∀ a : App, a.Steady → Leads a (p.run a).2

section Composition

variable {α β : Type}

theorem Steady.leads {a : App} (ha : a.Steady) : Leads a a :=
  ⟨ha, (Persists.refl a).wanes, fun _ _ => rfl⟩

theorem Leads.trans {a b c : App} (h : Leads a b) (h' : Leads b c) : Leads a c where
  steady := h'.steady
  wanes := h.wanes.trans h'.wanes
  history ha i := (h'.history (h.wanes.stillOver ha) i).trans (h.history ha i)

theorem stays_pure (x : α) : Stays (pure x) := fun _ ha => ha.leads

theorem Stays.bind {p : Program α} {f : α → Program β} (hp : Stays p) (hf : ∀ x, Stays (f x)) :
    Stays (p >>= f) := by
  intro a ha
  have h := hp a ha
  exact h.trans (hf (p.run a).1 (p.run a).2 h.steady)

theorem composes_stays : Composes fun α (p : Program α) => Stays p := ⟨stays_pure, Stays.bind⟩

/-- What is over stays over. -/
theorem Steady.of_wanes {a b : App} (ha : a.Steady) (hsound : b.Sound 0) (hquiet : b.Quiet)
    (h : Wanes a b) (hdropped : b.dropped = a.dropped) : b.Steady where
  sound := hsound
  quiet := hquiet
  atEnd hb := h.stillOver (ha.atEnd (hdropped.symm.trans hb))

theorem Keeps.stays {p : Program α} (hp : Keeps p) : Stays p := by
  intro a ha
  obtain ⟨hsound, hcalm⟩ := hp a 0 ha.sound
  have hwanes := hcalm.persists.wanes
  have hdropped := hcalm.persists.dropped
  exact ⟨ha.of_wanes hsound (hcalm.quiet ha.quiet) hwanes hdropped, hwanes,
    fun _ => hcalm.history⟩

end Composition

section Tasks

/-- A worker without tasks has nothing to do. -/
theorem run_advance_of_nil {a : App} {side : Side} (h : (a.worker side).queue = []) :
    ((Program.advance side).run a).2 = a.popped side := by
  have hrun : ((Program.worker side).step Worker.next).run a =
      ((a.worker side).next.1, a.popped side) := rfl
  have hnext : (a.worker side).next.1 = none := by rw [Worker.next, h]
  rw [Program.advance, run_bind, hrun, hnext]
  rfl

theorem queue_next (w : Worker Job) : w.next.2.queue = w.queue.tail := by
  rw [Worker.next]
  cases hqueue : w.queue with
  | nil => exact hqueue
  | cons task tasks => rfl

theorem accepting_next (w : Worker Job) : w.next.2.accepting = w.accepting := by
  rw [Worker.next]
  split
  · rfl
  · rfl

theorem accepting_popped (a : App) (side other : Side) :
    ((a.popped side).worker other).accepting = (a.worker other).accepting := by
  rw [popped, worker_setWorker]
  split
  · next heq =>
    subst heq
    exact accepting_next _
  · rfl

/-- The oldest task is gone from a queue, and the other queue is as it was. -/
theorem queue_popped (a : App) (side other : Side) :
    ((a.popped side).worker other).queue =
      if side = other then (a.worker side).queue.tail else (a.worker other).queue := by
  rw [popped, worker_setWorker]
  split
  · exact queue_next _
  · rfl

theorem wanes_popped (a : App) (side : Side) : Wanes a (a.popped side) := by
  apply wanes_setWorker
  · intro hshut
    rw [accepting_next]
    exact hshut
  · intro _
    rw [queue_next]
    exact List.tail_suffix _

theorem stays_advance (side : Side) : Stays (Program.advance side) := by
  intro a ha
  obtain ⟨hsound, hquiet, hpersists⟩ := ha.sound.advance ha.quiet side
  have hwanes := (wanes_popped a side).trans hpersists.wanes
  have hdropped := hpersists.dropped.trans (dropped_setWorker a side _)
  constructor
  · exact ha.of_wanes hsound hquiet hwanes hdropped
  · exact hwanes
  · intro hover
    rw [run_advance_of_nil (hover.drained side).queue]
    exact history_setWorker a side _

end Tasks

section Drives

theorem stays_advanceAny : Stays Program.advanceAny := by
  apply (stays_advance .tester).bind
  intro ran
  cases ran with
  | true => exact stays_pure _
  | false => exact stays_advance .engine

theorem stays_settleWithin (limit : Nat) : Stays (Program.settleWithin limit) := by
  induction limit with
  | zero => exact stays_pure _
  | succ limit ih =>
    apply stays_advanceAny.bind
    intro ran
    cases ran with
    | true => exact ih
    | false => exact stays_pure _

theorem stays_settle : Stays Program.settle :=
  (stays_settleWithin Program.settleLimit).bind fun _ => stays_pure _

theorem stays_advanceTimes (side : Side) (n : Nat) : Stays (Program.advanceTimes side n) := by
  induction n with
  | zero => exact stays_pure _
  | succ n ih => exact (stays_advance side).bind fun _ => ih

theorem keeps_worker_get (side : Side) : Keeps (Program.worker side).get := by
  apply keeps_of_same
  intro a
  cases side
  · rfl
  · rfl

theorem stays_advanceQueued (side : Side) : Stays (Program.advanceQueued side) :=
  (keeps_worker_get side).stays.bind fun w => stays_advanceTimes side w.queue.length

theorem stays_awaitMarks : Stays Program.awaitMarks := by
  apply (keeps_worker_get .tester).stays.bind
  intro w
  split
  · exact stays_advanceQueued .tester
  · exact stays_pure _

end Drives

section Drops

variable {a : App}

/-- After a teardown with all endpoints forgotten nothing waits and nothing can be sent. -/
theorem Sound.abort (ha : a.Sound 0) (reason : String) :
    ((Program.abort reason).run a).2.Closing := by
  let cleared : App := { a with router := a.router.clearRoutes }
  have hcleared : cleared.Sound 0 :=
    ha.setRouter ha.sharded rfl (fun _ => rfl) (.refl _)
  have hout := cleared.router.table.handsOut_cancelAll reason
  obtain ⟨-, -, hcalm⟩ := hcleared.onTable (·.cancelAll reason) hout
  have hclosing : (cleared.handed (·.cancelAll reason)).Closing :=
    ⟨rfl, PendingTable.entries_cancelAll _ reason, rfl, rfl⟩
  exact hcalm.persists.wanes.closing hclosing

/-- A worker that was shut down runs its oldest task, and the others stay. -/
theorem Steady.queue_advance (ha : a.Steady) {side : Side}
    (hshut : (a.worker side).accepting = false) :
    (((Program.advance side).run a).2.worker side).queue = (a.worker side).queue.tail := by
  have hpersists := (ha.sound.advance ha.quiet side).persists
  rw [hpersists.queue side ((accepting_popped a side side).trans hshut), queue_popped, if_pos rfl]

theorem Steady.queue_advanceTimes (ha : a.Steady) {side : Side}
    (hshut : (a.worker side).accepting = false) {n : Nat}
    (hn : (a.worker side).queue.length ≤ n) :
    (((Program.advanceTimes side n).run a).2.worker side).queue = [] := by
  induction n generalizing a with
  | zero => exact List.eq_nil_of_length_eq_zero (Nat.le_zero.mp hn)
  | succ n ih =>
    have hadvance := stays_advance side a ha
    have hqueue := ha.queue_advance hshut
    have hlength : (((Program.advance side).run a).2.worker side).queue.length ≤ n := by
      rw [hqueue, List.length_tail]
      omega
    exact ih hadvance.steady (hadvance.wanes.accepting side hshut) hlength

theorem run_advanceQueued (a : App) (side : Side) :
    (Program.advanceQueued side).run a =
      (Program.advanceTimes side (a.worker side).queue.length).run a := by
  cases side
  · rfl
  · rfl

/-- The intake of a worker stops, which is harmless when nothing waits. -/
theorem Sound.shutDown {hand : Nat → Nat} (ha : a.Sound hand)
    (htable : a.router.table.closed = true) (hentries : a.router.table.entries = [])
    (side : Side) : (a.setWorker side (a.worker side).shutDown).Sound hand :=
  ha.setWorker side (ha.honest side) (fun _ => rfl) fun _ => ⟨htable, hentries⟩

theorem Steady.shutDown (ha : a.Steady) (hclosing : a.Closing) (side : Side) :
    Leads a (a.setWorker side (a.worker side).shutDown) := by
  have hwanes : Wanes a (a.setWorker side (a.worker side).shutDown) :=
    wanes_setWorker (fun _ => rfl) fun _ => List.suffix_refl _
  constructor
  · apply ha.of_wanes _ _ hwanes (dropped_setWorker a side _)
    · exact ha.sound.shutDown hclosing.table hclosing.entries side
    · intro i busyWith
      rw [stage, history_setWorker]
      exact ha.quiet i busyWith
  · exact hwanes
  · intro _
    exact history_setWorker a side _

/-- Shuts a worker down while another program runs. -/
def shutDownAmid (side : Side) (meanwhile : Program PUnit) : Program Unit := do
  (Program.worker side).modify .shutDown
  meanwhile
  Program.advanceQueued side

theorem Steady.shutDownAmid (ha : a.Steady) (hclosing : a.Closing) (side : Side)
    {meanwhile : Program PUnit} (hmeanwhile : Stays meanwhile) :
    Leads a ((App.shutDownAmid side meanwhile).run a).2 ∧
      ((App.shutDownAmid side meanwhile).run a).2.Drained side := by
  have hshut := ha.shutDown hclosing side
  have hrun : ((App.shutDownAmid side meanwhile).run a).2 =
      ((Program.advanceQueued side).run
        (meanwhile.run (a.setWorker side (a.worker side).shutDown)).2).2 := rfl
  rw [hrun]
  have haccepting : ((a.setWorker side (a.worker side).shutDown).worker side).accepting =
      false := by
    rw [worker_setWorker, if_pos rfl]
    rfl
  have hrest := hmeanwhile _ hshut.steady
  have haccepting' := hrest.wanes.accepting side haccepting
  have hqueued := stays_advanceQueued side _ hrest.steady
  refine ⟨(hshut.trans hrest).trans hqueued, hqueued.wanes.accepting side haccepting', ?_⟩
  rw [run_advanceQueued]
  exact hrest.steady.queue_advanceTimes haccepting' (Nat.le_refl _)

theorem Sound.markDropped {hand : Nat → Nat} (ha : a.Sound hand) :
    { a with dropped := true, tester := none }.Sound hand :=
  ⟨ha.sharded, ha.orderly, ha.honest, ha.endings, ha.inRange, ha.once, ha.sent, ha.shut⟩

/-- The application is marked as dropped when its workers have run out of tasks. -/
theorem Steady.markDropped (ha : a.Steady) (hclosing : a.Closing)
    (hdrained : ∀ side, a.Drained side) :
    Leads a { a with dropped := true, tester := none } ∧
      { a with dropped := true, tester := none }.Over := by
  have hover : { a with dropped := true, tester := none }.Over :=
    ⟨rfl, ⟨hclosing.table, hclosing.entries, hclosing.closed, hclosing.routes⟩,
      fun side => ⟨(hdrained side).accepting, (hdrained side).queue⟩⟩
  refine ⟨⟨?_, ?_, fun _ _ => rfl⟩, hover⟩
  · exact ⟨ha.sound.markDropped, ha.quiet, fun _ => hover⟩
  · exact ⟨.refl _, fun hc => hc, fun hr => hr, fun _ hs => hs, fun _ _ => List.suffix_refl _,
      Nat.le_refl _, List.prefix_refl _, fun _ => rfl, fun _ => rfl⟩

/-- A program that ends an application, whatever state it is in. -/
def Ends {α : Type} (p : Program α) : Prop :=
  ∀ a : App, a.Steady → Leads a (p.run a).2 ∧ (p.run a).2.Over

theorem Stays.ends {α β : Type} {p : Program α} {f : α → Program β} (hp : Stays p)
    (hf : ∀ x, Ends (f x)) : Ends (p >>= f) := by
  intro a ha
  have h := hp a ha
  obtain ⟨h', hover⟩ := hf (p.run a).1 (p.run a).2 h.steady
  exact ⟨h.trans h', hover⟩

theorem Ends.bind {α β : Type} {p : Program α} {f : α → Program β} (hp : Ends p)
    (hf : ∀ x, Stays (f x)) : Ends (p >>= f) := by
  intro a ha
  obtain ⟨h, hover⟩ := hp a ha
  have h' := hf (p.run a).1 (p.run a).2 h.steady
  exact ⟨h.trans h', h'.wanes.stillOver hover⟩

/-- The steps of a drop, with other programs that run in between: after the abort, while the
tester's worker runs out of tasks, before the engine's worker is shut down, and while that runs out
of tasks. -/
def dropAmid (p q r s : Program PUnit) : Program Unit := do
  let _ ← Program.abort "tester dropped"
  p
  shutDownAmid .tester q
  r
  shutDownAmid .engine s
  modify fun a => { a with dropped := true, tester := none }

/-- A drop ends an application, whatever else happens meanwhile. -/
theorem ends_dropAmid {p q r s : Program PUnit} (hp : Stays p) (hq : Stays q) (hr : Stays r)
    (hs : Stays s) : Ends (dropAmid p q r s) := by
  intro a ha
  have haborted := (keeps_abort "tester dropped").stays a ha
  have hclosing := ha.sound.abort "tester dropped"
  have hfirst := hp _ haborted.steady
  have hclosing₁ := hfirst.wanes.closing hclosing
  obtain ⟨htester, hdrained⟩ := hfirst.steady.shutDownAmid hclosing₁ .tester hq
  have hsecond := hr _ htester.steady
  have hclosing₂ := hsecond.wanes.closing (htester.wanes.closing hclosing₁)
  obtain ⟨hengine, hdrained'⟩ := hsecond.steady.shutDownAmid hclosing₂ .engine hs
  have hmarked := hengine.steady.markDropped (hengine.wanes.closing hclosing₂) fun side => by
    cases side with
    | tester => exact hengine.wanes.drained (hsecond.wanes.drained hdrained)
    | engine => exact hdrained'
  have hbefore := ((haborted.trans hfirst).trans htester).trans hsecond
  exact ⟨(hbefore.trans hengine).trans hmarked.1, hmarked.2⟩

theorem ends_drop : Ends Program.drop := by
  intro a ha
  have hget : (get : Program App).run a = (a, a) := rfl
  rw [Program.drop, run_bind, hget]
  cases hdropped : a.dropped with
  | true => exact ⟨ha.leads, ha.atEnd hdropped⟩
  | false =>
    have hnothing := stays_pure PUnit.unit
    exact ends_dropAmid hnothing hnothing hnothing hnothing a ha

theorem stays_drop : Stays Program.drop := fun a ha => (ends_drop a ha).1

end Drops

section Steps

/-- Whatever step is made from outside. -/
theorem stays_perform (s : Step) : Stays (Program.perform s) := by
  by_cases hkept : s = .dropApp
  · subst hkept
    exact stays_drop.bind fun _ => stays_pure _
  · exact (operates_perform hkept).keeps.stays

theorem stays_stepAndSettle (s : Step) : Stays (Program.stepAndSettle s) := by
  have hstep : Stays (Program.step s) :=
    (stays_perform s).bind fun _ => stays_awaitMarks.bind fun _ => stays_pure _
  exact hstep.bind fun _ => stays_settle.bind fun _ => stays_pure _

end Steps

section Runs

theorem keeps_schedulePhase (callback : PhaseCallback) :
    Keeps (Program.schedulePhase callback) :=
  Keeps.bind (keeps_execute .tester rfl trivial) fun _ => keeps_pure _

theorem keeps_startRun (tester : TesterScript) : Keeps (Program.startRun tester) := by
  refine Keeps.bind (keeps_modify fun _ => ?_) fun _ => ?_
  · rfl
  · apply (keeps_schedulePhase .start).bind
    intro _
    exact Keeps.bind (keeps_execute .engine rfl trivial) fun _ => keeps_pure _

theorem keeps_answerPhase (event : PhaseEvent) : Keeps (Program.answerPhase event) := by
  cases event with
  | started => exact keeps_pure _
  | stopping => exact (keeps_schedulePhase .stop).bind fun _ => keeps_pure _
  | stopped => exact (keeps_schedulePhase .deinit).bind fun _ => keeps_pure _
  | deinited => exact keeps_pure _

theorem stays_runOn (seen limit : Nat) : Stays (Program.runOn seen limit) := by
  induction limit generalizing seen with
  | zero => exact stays_pure _
  | succ limit ih =>
    apply keeps_get.stays.bind
    intro a
    cases a.lifecycle.announced[seen]? with
    | some event =>
      apply (keeps_answerPhase event).stays.bind
      intro last
      cases last with
      | true => exact stays_pure _
      | false => exact ih (seen + 1)
    | none =>
      apply stays_advanceAny.bind
      intro ran
      cases ran with
      | true => exact ih seen
      | false => exact stays_pure _

theorem keeps_timeOut : Keeps Program.timeOut :=
  keeps_get.bind fun _ => (keeps_abort _).bind fun _ => keeps_pure _

theorem stays_drain (side : Side) : Stays (Program.drain side) :=
  (keeps_flush side).stays.bind fun _ => stays_advanceQueued side

/-- A run ends by a drop, whether it was finished or not. -/
theorem ends_runToEnd (tester : TesterScript) : Ends (Program.runToEnd tester) := by
  refine (keeps_startRun tester).stays.ends fun _ => (stays_runOn 0 _).ends fun finished => ?_
  cases finished with
  | true =>
    refine (stays_drain .tester).ends fun _ => (stays_drain .engine).ends fun _ => ?_
    exact stays_settle.ends fun _ => keeps_get.stays.ends fun _ =>
      ends_drop.bind fun _ => stays_pure _
  | false => exact keeps_timeOut.stays.ends fun _ => ends_drop.bind fun _ => stays_pure _

end Runs

end Switchboard.App
