import Switchboard.Proofs.App.Handing
import Switchboard.Proofs.App.Tallies
import Switchboard.Proofs.Run.Runner
/-!
# The course of an application

An application need not be run to its end. Whoever has it may drop it before it is run, and a run
whose time is over is given up and then dropped. Meanwhile and afterwards everybody goes on. Along
all courses the books are kept and the phases announced; the router stays open until the run is
stopped or nothing is left but to drop the application; and no delivery that ends a request misses
its handler.
-/
namespace Switchboard.App

/-- What happens to an application: an act of anybody, or that it is given up. -/
inductive Deed where
  | act (act : Act)
  | giveUp

/-- Whether the tester's worker takes a task. -/
def Deed.takesTester : Deed → Bool
  | .act (.take .tester) => true
  | .act _ | .giveUp => false

namespace Runner

/-- Whether nothing is left to do but to drop the application. -/
def leaving : Runner → Bool
  | draining .engine 0 | aborted | shutting _ | returned => true
  | idle | installed | starting | listening _ | finished | draining .engine (_ + 1)
  | draining .tester _ => false

/-- Whether the application is being dropped. -/
def dropping : Runner → Bool
  | aborted | shutting _ | returned => true
  | idle | installed | starting | listening _ | finished | draining .. => false

theorem dropping_of_closing {r : Runner} (h : r.closing = true) : r.dropping = true := by
  cases r with
  | shutting side => rfl
  | returned => rfl
  | idle | installed | starting | finished | aborted => cases h
  | listening seen => cases h
  | draining side left => cases h

theorem dropping_countDown (r : Runner) (side : Side) : (r.countDown side).dropping = r.dropping := by
  rcases r.countDown_cases side with hsame | ⟨left, rfl, hless⟩
  · rw [hsame]
  · rw [hless]
    rfl

/-- Whoever waits for tasks does not return by that. -/
theorem eq_returned_of_countDown {r : Runner} {side : Side} (h : r.countDown side = .returned) :
    r = .returned := by
  rcases r.countDown_cases side with hsame | ⟨left, rfl, hless⟩
  · exact hsame.symm.trans h
  · cases hless.symm.trans h

/-- Whoever leaves does not wait for tasks. -/
theorem countDown_of_leaving {r : Runner} (h : r.leaving = true) (side : Side) :
    r.countDown side = r := by
  rcases r.countDown_cases side with hsame | ⟨left, rfl, -⟩
  · exact hsame
  · cases side with
    | tester | engine => cases h

end Runner

namespace Scene

/-- An application that nobody runs is given up, or a run whose time is over. The drop comes
next. -/
def giveUp (s : Scene) : Option Scene :=
  match s.runner with
  | .idle => some { s with runner := .draining .engine 0 }
  | .listening _ => some (s.become Program.timeOut fun _ => .draining .engine 0)
  | _ => none

/-- Only an application that nobody runs or that listens can be given up. -/
theorem giveUp_eq_some {s s' : Scene} (h : s.giveUp = some s') :
    (s.runner = .idle ∧ s' = { s with runner := .draining .engine 0 }) ∨
    (∃ seen, s.runner = .listening seen ∧
      s' = s.become Program.timeOut fun _ => .draining .engine 0) := by
  rw [giveUp] at h
  split at h
  · next hidle => exact Or.inl ⟨hidle, (Option.some.inj h).symm⟩
  · next seen hlistens => exact Or.inr ⟨seen, hlistens, (Option.some.inj h).symm⟩
  · cases h

/-- What becomes of a scene by something that happens, if that is possible. -/
def undergo (s : Scene) : Deed → Option Scene
  | .act act => s.perform act
  | .giveUp => s.giveUp

/-- What becomes of a scene by things that happen one after the other. -/
def course (s : Scene) : List Deed → Option Scene
  | [] => some s
  | deed :: deeds => (s.undergo deed).bind fun s => s.course deeds

theorem course_append (s : Scene) (deeds more : List Deed) :
    s.course (deeds ++ more) = (s.course deeds).bind fun s => s.course more := by
  induction deeds generalizing s with
  | nil => rfl
  | cons deed deeds ih =>
    cases h : s.undergo deed with
    | none => simp [course, h]
    | some s' => simp [course, h, ih]

/-- What holds of a scene along every course. -/
structure Lasting (owners : List Side) (s : Scene) : Prop where
  accounted : s.Accounted owners
  paced : s.app.Paced
  hushed : s.runner.dropping = true → s.app.Hushed
  opened : s.runner.leaving = false → s.app.rank < 2 → s.app.router.closed = false

end Scene

section Programs

variable {α β : Type}

/-- A program that does at most queue tasks that are neither deliveries nor messages. -/
structure Queues (α : Type) (p : Program α) : Prop where
  keeps : Keeps p
  placed : ∀ {owners : List Side} {a : App}, a.Placed owners → (p.run a).2.Placed owners
  lifecycle : ∀ a, (p.run a).2.lifecycle = a.lifecycle
  router : ∀ a, (p.run a).2.router = a.router
  queue : ∀ a side, (a.worker side).queue <+: ((p.run a).2.worker side).queue
  tallies : ∀ flags, Tallies flags α p
  withholds : Withholds α p

theorem composes_queues : Composes Queues where
  pure x := ⟨keeps_pure x, id, fun _ => rfl, fun _ => rfl, fun _ _ => List.prefix_refl _,
    fun _ => composes_tallies.pure x, composes_withholds.pure x⟩
  bind {_ _ p _} hp hf := by
    constructor
    · exact hp.keeps.bind fun x => (hf x).keeps
    · exact fun ha => (hf _).placed (hp.placed ha)
    · exact fun a => ((hf _).lifecycle _).trans (hp.lifecycle a)
    · exact fun a => ((hf _).router _).trans (hp.router a)
    · exact fun a side => (hp.queue a side).trans ((hf _).queue _ side)
    · exact fun flags => composes_tallies.bind (hp.tallies flags) fun x => (hf x).tallies flags
    · exact composes_withholds.bind hp.withholds fun x => (hf x).withholds

theorem queues_get (side : Side) : Queues _ (Program.worker side).get := by
  have hsame (a : App) : ((Program.worker side).get.run a).2 = a := by
    cases side
    · rfl
    · rfl
  constructor
  · exact keeps_worker_get side
  · intro owners a ha
    rw [hsame]
    exact ha
  · exact fun a => congrArg App.lifecycle (hsame a)
  · exact fun a => congrArg App.router (hsame a)
  · intro a other
    exact ⟨[], by rw [List.append_nil, hsame]⟩
  · intro flags a ha
    rw [hsame]
    exact ha.still
  · intro a
    rw [hsame]
    exact .refl a

theorem queues_accept (side : Side) {task : Task Job} (hnone : endingsOf task = 0)
    (hhonest : HonestTask task)
    (hresume : ∀ i outcome terminal, .job (.resume i outcome terminal) ≠ task)
    (harrival : arrivalOf task = none) (hlater : isLater side task = true) :
    Queues _ ((Program.worker side).step (·.accept task)) where
  keeps := keeps_accept side hnone hhonest
  placed {owners a} ha := by
    have hqueued (i : Nat) (outcome : Outcome) (terminal : Bool)
        (h : .job (.resume i outcome terminal) ∈ ((a.worker side).accept task).2.queue) :
        owners[i]? = some side := by
      rw [Worker.accept] at h
      split at h
      · rcases List.mem_append.mp h with h | h
        · exact ha.queued side i outcome terminal h
        · exact absurd (List.mem_singleton.mp h) (hresume i outcome terminal)
      · exact ha.queued side i outcome terminal h
    have haccepting : ((a.worker side).accept task).2.accepting = (a.worker side).accepting := by
      rw [Worker.accept]
      split
      · rfl
      · rfl
    exact ha.setWorker side (fun hshut => ha.shut side (haccepting.symm.trans hshut)) hqueued
  lifecycle a := lifecycle_setWorker a side _
  router a := router_setWorker a side _
  queue a other := by
    change _ <+: ((a.setWorker side ((a.worker side).accept task).2).worker other).queue
    rw [worker_setWorker]
    split
    · next heq =>
      subst heq
      rw [Worker.accept]
      split
      · exact List.prefix_append _ _
      · exact List.prefix_refl _
    · exact List.prefix_refl _
  tallies _ := tallies_accept side fun i outcome heq => absurd heq.symm (hresume i outcome false)
  withholds := withholds_accept side task harrival hlater

theorem queues_schedulePhase (callback : PhaseCallback) :
    Queues _ (Program.schedulePhase callback) :=
  composes_queues.bind (queues_accept .tester rfl trivial nofun rfl rfl) fun _ =>
    composes_queues.pure _

theorem queues_startExtension :
    Queues _ ((Program.worker .engine).step (·.execute .startExtension)) :=
  @queues_accept .engine (.job .startExtension) rfl trivial nofun rfl rfl

theorem queues_answerPhase (event : PhaseEvent) : Queues _ (Program.answerPhase event) := by
  cases event with
  | started => exact composes_queues.pure _
  | stopping =>
    exact composes_queues.bind (queues_schedulePhase .stop) fun _ => composes_queues.pure _
  | stopped =>
    exact composes_queues.bind (queues_schedulePhase .deinit) fun _ => composes_queues.pure _
  | deinited => exact composes_queues.pure _

/-- A program that neither opens nor closes the router. -/
def Latched (α : Type) (p : Program α) : Prop :=
  ∀ a : App, (p.run a).2.router.closed = a.router.closed

theorem composes_latched : Composes Latched where
  pure _ _ := rfl
  bind hp hf a := (hf _ _).trans (hp a)

theorem latched_accept (side : Side) (task : Task Job) :
    Latched _ ((Program.worker side).step (·.accept task)) := fun a =>
  congrArg Router.closed (router_setWorker a side _)

theorem latched_submit (d : Delivery Nat Side) : Latched _ (Program.submit d) := by
  apply composes_latched.bind (latched_accept d.executor (taskOf d))
  intro answer
  cases answer with
  | ok _ => exact composes_latched.pure _
  | error e =>
    refine composes_latched.bind (fun _ => rfl) fun c => ?_
    split
    · exact fun _ => rfl
    · exact composes_latched.pure _

theorem latched_onTable
    (op : PendingTable Nat Side → α × List (Delivery Nat Side) × PendingTable Nat Side) :
    Latched _ (Program.fabric.onTable op) := by
  refine composes_latched.bind (fun _ => rfl) fun (answer, deliveries) => ?_
  exact composes_latched.bind (composes_latched.forM latched_submit deliveries) fun _ =>
    composes_latched.pure _

theorem fits_latched : Composes.Fits Latched Program.fabric where
  get _ := rfl
  complete id result := latched_onTable _
  fail id fault := latched_onTable _
  forward side msg := by
    unfold Program.fabric Program.forward
    dsimp only
    split
    · exact composes_latched.pure _
    · exact latched_accept side _

theorem latched_sendCmd (handler : Handler) (cmd : Cmd) (streaming : Bool) :
    Latched _ (Program.sendCmd handler cmd streaming) := by
  have hthrough (p : Outlet Side) (i : Nat) :
      Latched _ (p.sendCmd Program.fabric cmd i streaming) :=
    composes_latched.sendCmd fits_latched p cmd fun _ => rfl
  refine composes_latched.bind (fun _ => rfl) fun i => composes_latched.bind ?_ fun answer => ?_
  · refine composes_latched.bind (fun _ => rfl) fun a => ?_
    cases handler.side with
    | engine => exact hthrough _ i
    | tester =>
      have hduring : Latched _ (PermitPool.during Program.pool
          ((a.outlet .tester).sendCmd Program.fabric cmd i streaming)) :=
        composes_latched.bind (fun _ => rfl) fun _ => composes_latched.bind (hthrough _ i) fun _ =>
          composes_latched.bind (fun _ => rfl) fun _ => composes_latched.pure _
      refine composes_latched.bind hduring fun answer => ?_
      cases answer with
      | error e => exact composes_latched.pure _
      | ok id => exact composes_latched.bind (fun _ => rfl) fun _ => composes_latched.pure _
  · cases answer with
    | error e => exact composes_latched.pure _
    | ok id => exact composes_latched.bind (fun _ => rfl) fun _ => composes_latched.pure _

/-- A started run that is stopped is in the stopping phase. -/
theorem Placed.phase_stop {owners : List Side} {a : App} (ha : a.Placed owners)
    (hstarted : a.lifecycle.phase = .started) :
    (Operation.stop.perform.run a).2.lifecycle.phase = .stopping := by
  have hplaced : a.stopping.Placed owners := ha.unmoved ⟨rfl, fun _ => rfl, rfl⟩
  obtain ⟨hgrows, -⟩ := behaves_tearDown "test stopped" a.stopping hplaced
  rw [run_stop_of_started hstarted]
  change (Lifecycle.announce _ _).phase = _
  rw [Lifecycle.phase_announce, hgrows.lifecycle]
  rfl

theorem Placed.two_le_rank_stop {owners : List Side} {a : App} (ha : a.Placed owners)
    (hstarted : a.lifecycle.phase = .started) : 2 ≤ (Operation.stop.perform.run a).2.rank :=
  Nat.le_of_eq (congrArg Phase.rank (ha.phase_stop hstarted)).symm

/-- Only a stop closes the router, and then the run has come to the stopping phase. -/
theorem Operation.opened (op : Operation) {owners : List Side} {a : App} (ha : a.Placed owners)
    (hopen : a.router.closed = false) (hrank : (op.perform.run a).2.rank < 2) :
    (op.perform.run a).2.router.closed = false := by
  have hlatched {p : Program op.Answer} (hp : Latched _ p) : (p.run a).2.router.closed = false :=
    (hp a).trans hopen
  cases op with
  | sendCmd handler cmd streaming => exact hlatched (latched_sendCmd handler cmd streaming)
  | send p msg => exact hlatched (composes_latched.send fits_latched.toReaches p msg)
  | returnResult result =>
    exact hlatched (composes_latched.returnResult fits_latched.complete result)
  | complete completion => exact hlatched (latched_accept .tester _)
  | stop =>
    by_cases hstarted : a.lifecycle.phase = .started
    · exact absurd hrank (Nat.not_lt.mpr (ha.two_le_rank_stop hstarted))
    · rw [run_stop_of_ne hstarted]
      exact hopen
  | await => exact hlatched (latched_accept .tester .mark)
  | acknowledge callback => exact hopen

end Programs

namespace Scene

section Deeds

variable {owners : List Side} {s s' : Scene}

/-- Nobody begins or ceases to leave, and the router and the lifecycle are as they were. -/
theorem Lasting.still (h : s.Lasting owners) (haccounted : s'.Accounted owners)
    (hlifecycle : s'.app.lifecycle = s.app.lifecycle) (hrouter : s'.app.router = s.app.router)
    (hdropping : s'.runner.dropping = true → s.runner.dropping = true)
    (hleaving : s.runner.leaving = true → s'.runner.leaving = true) : s'.Lasting owners where
  accounted := haccounted
  paced := h.paced.of_lifecycle hlifecycle fun hhushed => hhushed.of_router hrouter
  hushed hdrop := (h.hushed (hdropping hdrop)).of_router hrouter
  opened hstays hrank := by
    rw [hrouter]
    rw [rank, hlifecycle] at hrank
    refine h.opened ?_ hrank
    by_contra hleaves
    rw [hleaving (Bool.not_eq_false _ ▸ hleaves)] at hstays
    cases hstays

/-- Somebody performs an operation. -/
theorem Lasting.operate (h : s.Lasting owners) (op : Operation) :
    Lasting (owners ++ op.owners)
      { s with
        app := (op.perform.run s.app).2
        log := s.log ++ op.entries s.app (op.perform.run s.app).1 } := by
  obtain ⟨hsound, hcalm⟩ := op.keeps s.app 0 h.accounted.sound
  have hproceeds := op.proceeds h.accounted.placed h.paced
  constructor
  · refine h.accounted.proceeds (List.prefix_append _ _) hsound hproceeds.placed hcalm
      fun i hi => ?_
    obtain ⟨-, k, heq, hsent⟩ := h.accounted.sent_of_operate hi
    cases heq
    exact hsent
  · exact hproceeds.paced
  · exact fun hdrop => hproceeds.hushed (h.hushed hdrop)
  · intro hstays hrank
    have hbefore : s.app.rank < 2 := Nat.lt_of_le_of_lt hproceeds.rank hrank
    exact op.opened h.accounted.placed (h.opened hstays hbefore) hrank

/-- Somebody takes notes. -/
theorem Lasting.note (h : s.Lasting owners) (notes : App) :
    Lasting owners { s with app := s.app.annotate notes } := by
  have hsame : Same s.app (s.app.annotate notes) := rfl
  have haccounted := h.accounted.stay (h.accounted.sound.same hsame)
    (h.accounted.placed.unmoved ⟨rfl, fun _ => rfl, rfl⟩) rfl rfl s.runner
  exact h.still haccounted rfl rfl id id

/-- A worker begins with its oldest task. -/
theorem Lasting.take (h : s.Lasting owners) {side : Side} (hidle : s.busy side = none)
    {task : Task Job} {tasks : List (Task Job)}
    (hqueue : (s.app.worker side).queue = task :: tasks) :
    (start { s with app := s.app.popped side, runner := s.runner.countDown side } side
      task).Lasting owners := by
  obtain ⟨hunshaken, hrunner⟩ := unshaken_start
    { s with app := s.app.popped side, runner := s.runner.countDown side } side task
  refine h.still (h.accounted.start hidle hqueue _)
    (hunshaken.lifecycle.trans (lifecycle_setWorker s.app side _))
    (hunshaken.router.trans (router_setWorker s.app side _)) ?_ ?_
  · rw [hrunner, Runner.dropping_countDown]
    exact id
  · intro hleaves
    rw [hrunner, Runner.countDown_of_leaving hleaves]
    exact hleaves

/-- A job ends. -/
theorem Lasting.finish (h : s.Lasting owners) {side : Side} {business : Business}
    (hbusy : s.busy side = some business) (ended : Except Panic Unit) :
    Lasting owners
      { s with
        app := (s.app.ending business).counted side ended
        busy := Function.update s.busy side none } := by
  have hunshaken := unshaken_ended s.app business side ended
  exact h.still (h.accounted.finish hbusy ended) hunshaken.lifecycle hunshaken.router id id

/-- The runner queues at most tasks that are no deliveries. -/
theorem Lasting.queue (h : s.Lasting owners) {α : Type} {p : Program α} (hp : Queues α p)
    {next : α → Runner} (hdropping : (next (p.run s.app).1).dropping = false)
    (hleaving : s.runner.leaving = false) : (s.become p next).Lasting owners := by
  obtain ⟨hsound, hcalm⟩ := hp.keeps s.app 0 h.accounted.sound
  have haccounted := h.accounted.calm hsound (hp.placed h.accounted.placed) hcalm
    (next (p.run s.app).1)
  refine h.still haccounted (hp.lifecycle s.app) (hp.router s.app) ?_ ?_
  · intro hdrop
    rw [Scene.become, hdropping] at hdrop
    cases hdrop
  · intro hleaves
    rw [hleaving] at hleaves
    cases hleaves

/-- The router is closed and everything is cancelled by somebody who leaves. -/
theorem Lasting.abort (h : s.Lasting owners) {reason : String} {α : Type} {p : Program α}
    (hp : (p.run s.app).2 = ((Program.abort reason).run s.app).2) {next : α → Runner}
    (hnext : (next (p.run s.app).1).leaving = true) : (s.become p next).Lasting owners := by
  obtain ⟨hsound, hcalm⟩ := keeps_abort reason s.app 0 h.accounted.sound
  obtain ⟨hgrows, hhushed⟩ := behaves_abort reason s.app h.accounted.placed
  have hclosing := h.accounted.sound.abort reason
  have haccounted := h.accounted.calm hsound hgrows.placed hcalm (next (p.run s.app).1)
  rw [Scene.become, hp]
  refine ⟨haccounted, h.paced.of_lifecycle hgrows.lifecycle hhushed, fun _ => ?_, fun hstays => ?_⟩
  · exact ⟨hclosing.closed, hclosing.table, hclosing.entries⟩
  · rw [hnext] at hstays
    cases hstays

/-- A worker is shut down by somebody who drops the application. -/
theorem Lasting.shutDown (h : s.Lasting owners) (hdrop : s.runner.dropping = true) (side : Side) :
    (s.become ((Program.worker side).modify .shutDown) fun _ => .shutting side).Lasting owners := by
  obtain ⟨-, htable, hentries⟩ := h.hushed hdrop
  have hrun : (((Program.worker side).modify .shutDown).run s.app).2 =
      s.app.setWorker side (s.app.worker side).shutDown := rfl
  rw [Scene.become, hrun]
  have hplaced : (s.app.setWorker side (s.app.worker side).shutDown).Placed owners :=
    h.accounted.placed.setWorker side (fun _ => ⟨htable, hentries⟩)
      (h.accounted.placed.queued side)
  have haccounted := h.accounted.stay (h.accounted.sound.shutDown htable hentries side) hplaced
    (cells_setWorker s.app side _) (router_setWorker s.app side _) (.shutting side)
  exact h.still haccounted (lifecycle_setWorker s.app side _) (router_setWorker s.app side _)
    (fun _ => hdrop) fun _ => rfl

/-- What the runner does when it goes on: it queues tasks that are no deliveries, or it cancels
everything, or it shuts a worker down, or it forgets the tester. -/
theorem proceed_cases (h : s.proceed = some s') :
    (∃ (α : Type) (p : Program α) (next : α → Runner), Queues α p ∧ s' = s.become p next ∧
      s.runner.leaving = false ∧ (next (p.run s.app).1).dropping = false) ∨
    (s.runner = .draining .engine 0 ∧
      s' = s.become (Program.abort "tester dropped") fun _ => .aborted) ∨
    (∃ side, s.runner.dropping = true ∧
      s' = s.become ((Program.worker side).modify .shutDown) fun _ => .shutting side) ∨
    (s.runner = .shutting .engine ∧
      s' = { s with
        app := { s.app with dropped := true, tester := none }
        runner := .returned }) := by
  have hflush (side : Side) : Queues _ (do
      let _ ← (Program.worker side).step (·.flush false)
      return (← (Program.worker side).get).queue.length) :=
    composes_queues.bind (queues_accept side rfl trivial nofun rfl rfl) fun _ =>
      composes_queues.bind (queues_get side) fun _ => composes_queues.pure _
  cases goesOn_of_proceed h with
  | start hrunner =>
    exact Or.inl ⟨_, _, _, queues_schedulePhase .start, rfl, hrunner ▸ rfl, rfl⟩
  | launch hrunner => exact Or.inl ⟨_, _, _, queues_startExtension, rfl, hrunner ▸ rfl, rfl⟩
  | answer seen event hrunner _ =>
    refine Or.inl ⟨_, _, _, queues_answerPhase event, rfl, hrunner ▸ rfl, ?_⟩
    split
    · rfl
    · rfl
  | flushTester hrunner => exact Or.inl ⟨_, _, _, hflush .tester, rfl, hrunner ▸ rfl, rfl⟩
  | flushEngine hrunner => exact Or.inl ⟨_, _, _, hflush .engine, rfl, hrunner ▸ rfl, rfl⟩
  | abort hrunner => exact Or.inr (Or.inl ⟨hrunner, rfl⟩)
  | shutTester hrunner => exact Or.inr (Or.inr (Or.inl ⟨.tester, hrunner ▸ rfl, rfl⟩))
  | shutEngine hrunner _ => exact Or.inr (Or.inr (Or.inl ⟨.engine, hrunner ▸ rfl, rfl⟩))
  | leave hrunner _ => exact Or.inr (Or.inr (Or.inr ⟨hrunner, rfl⟩))

/-- Whoever drops the application shuts down one worker after the other, each when the one before has
worked its queue off, and forgets the tester. -/
theorem proceed_of_dropping (hdrop : s.runner.dropping = true) (h : s.proceed = some s') :
    (s.runner = .aborted ∧
      s' = s.become ((Program.worker .tester).modify .shutDown) fun _ => .shutting .tester) ∨
    (s.runner = .shutting .tester ∧ (s.app.worker .tester).queue = [] ∧
      s' = s.become ((Program.worker .engine).modify .shutDown) fun _ => .shutting .engine) ∨
    (s.runner = .shutting .engine ∧ (s.app.worker .engine).queue = [] ∧
      s' = { s with
        app := { s.app with dropped := true, tester := none }
        runner := .returned }) := by
  cases goesOn_of_proceed h with
  | start hrunner | launch hrunner | answer _ _ hrunner | flushTester hrunner
  | flushEngine hrunner | abort hrunner =>
    rw [hrunner] at hdrop
    cases hdrop
  | shutTester hrunner => exact Or.inl ⟨hrunner, rfl⟩
  | shutEngine hrunner hqueue => exact Or.inr (Or.inl ⟨hrunner, hqueue, rfl⟩)
  | leave hrunner hqueue => exact Or.inr (Or.inr ⟨hrunner, hqueue, rfl⟩)

/-- The runner goes on. -/
theorem Lasting.proceed (h : s.Lasting owners) (hproceed : s.proceed = some s') :
    s'.Lasting owners := by
  rcases proceed_cases hproceed with ⟨α, p, next, hp, rfl, hstays, hnext⟩ | ⟨-, rfl⟩ |
    ⟨side, hdrop, rfl⟩ | ⟨hrunner, rfl⟩
  · exact h.queue hp hnext hstays
  · exact h.abort rfl rfl
  · exact h.shutDown hdrop side
  · have haccounted := h.accounted.stay h.accounted.sound.markDropped
      (h.accounted.placed.unmoved ⟨rfl, fun _ => rfl, rfl⟩) rfl rfl .returned
    exact h.still haccounted rfl rfl (fun _ => hrunner ▸ rfl) fun _ => rfl

/-- Whoever has the application gives it up. -/
theorem Lasting.giveUp (h : s.Lasting owners) (hgive : s.giveUp = some s') :
    s'.Lasting owners := by
  rcases giveUp_eq_some hgive with ⟨-, rfl⟩ | ⟨_, -, rfl⟩
  · exact h.still (h.accounted.stay h.accounted.sound h.accounted.placed rfl rfl _) rfl rfl nofun
      fun _ => rfl
  · have hrun : (Program.timeOut.run s.app).2 =
        ((Program.abort "run timed out").run s.app).2 := rfl
    exact h.abort hrun rfl

/-- Whatever happens. -/
theorem Lasting.undergo (h : s.Lasting owners) {deed : Deed} (hdeed : s.undergo deed = some s') :
    ∃ owners', owners <+: owners' ∧ s'.Lasting owners' := by
  have hstill (hs : s'.Lasting owners) : ∃ owners', owners <+: owners' ∧ s'.Lasting owners' :=
    ⟨owners, List.prefix_refl owners, hs⟩
  cases deed with
  | giveUp => exact hstill (h.giveUp hdeed)
  | act act =>
    cases act with
    | operate op =>
      cases hdeed
      exact ⟨_, List.prefix_append _ _, h.operate op⟩
    | note notes =>
      cases hdeed
      exact hstill (h.note notes)
    | take side =>
      obtain ⟨hidle, task, tasks, hqueue, rfl⟩ := take_eq_some hdeed
      exact hstill (h.take hidle hqueue)
    | finish side ended =>
      obtain ⟨business, hbusy, rfl⟩ := Option.map_eq_some_iff.mp hdeed
      exact hstill (h.finish hbusy ended)
    | call tester =>
      obtain ⟨hidle, rfl⟩ := call_eq_some hdeed
      have hsame : Same s.app { s.app with tester := some tester } := rfl
      have haccounted := h.accounted.stay (h.accounted.sound.same hsame)
        (h.accounted.placed.unmoved ⟨rfl, fun _ => rfl, rfl⟩) rfl rfl .installed
      refine hstill (h.still haccounted rfl rfl nofun fun hleaves => ?_)
      rw [hidle] at hleaves
      cases hleaves
    | proceed => exact hstill (h.proceed hdeed)

/-- Along every course. -/
theorem Lasting.course (h : s.Lasting owners) {deeds : List Deed}
    (hcourse : s.course deeds = some s') : ∃ owners', owners <+: owners' ∧ s'.Lasting owners' := by
  induction deeds generalizing s owners with
  | nil =>
    cases hcourse
    exact ⟨owners, List.prefix_refl owners, h⟩
  | cons deed deeds ih =>
    obtain ⟨next, hdeed, hrest⟩ := Option.bind_eq_some_iff.mp hcourse
    obtain ⟨owners', hmore, hnext⟩ := h.undergo hdeed
    obtain ⟨owners'', hmore', hlast⟩ := ih hnext hrest
    exact ⟨owners'', hmore.trans hmore', hlast⟩

end Deeds

section Arrivals

variable {owners : List Side} {s : Scene} {side : Side} {i : Nat} {outcome : Outcome}

/-- A delivery that finds its handler calls it. -/
theorem resume_of_waiting {c : Continuation Handler} {handler : Handler}
    (hfound : s.app.cells[i]? = some c) (hslot : c.slot = .waiting handler) (side : Side)
    (outcome : Outcome) (terminal : Bool) :
    s.resume side i outcome terminal =
        occupy { s with app := s.app.setCell i (c.takeOut outcome terminal).2 } side
          (.call i handler terminal) (if handler.side = .tester then [.handler i outcome] else []) ∧
      (c.takeOut outcome terminal).2.history = c.history ++ [.arrival outcome terminal true] := by
  rw [resume, Array.getD_eq_getD_getElem?, hfound]
  dsimp only [Option.getD_some]
  rw [Continuation.takeOut, hslot]
  exact ⟨rfl, rfl⟩

/-- A delivery that finds no handler calls nothing. -/
theorem resume_of_missing {c : Continuation Handler} (hfound : s.app.cells[i]? = some c)
    (hslot : ∀ handler, c.slot ≠ .waiting handler) (side : Side) (outcome : Outcome)
    (terminal : Bool) :
    s.resume side i outcome terminal =
        occupy { s with app := s.app.setCell i (c.takeOut outcome terminal).2 } side .other [] ∧
      (c.takeOut outcome terminal).2.history = c.history ++ [.arrival outcome terminal false] := by
  rcases takeOut_cases c outcome terminal with ⟨handler, -, hwaits, -⟩ | ⟨hnone, hhistory⟩
  · exact absurd hwaits (hslot handler)
  · refine ⟨?_, hhistory⟩
    rw [resume, Array.getD_eq_getD_getElem?, hfound]
    dsimp only [Option.getD_some]
    rw [hnone]

/-- A delivery that ends a request finds its handler waiting: there is no other ending for it, and
no call is in progress that the worker has not ended. -/
theorem Accounted.exists_waiting (h : s.Accounted owners) (hidle : s.busy side = none)
    {tasks : List (Task Job)}
    (hqueue : (s.app.worker side).queue = .job (.resume i outcome true) :: tasks) :
    ∃ c handler, s.app.cells[i]? = some c ∧ c.slot = .waiting handler := by
  have howner := h.placed.queued side i outcome true (hqueue ▸ List.mem_cons_self)
  have hqueued : 0 < queuedIn (s.app.worker side).queue i := by
    have hone : endingsOf (.job (.resume i outcome true)) i = 1 := if_pos ⟨rfl, rfl⟩
    rw [hqueue, queuedIn_cons, hone]
    omega
  have hendings := h.sound.endings i
  rw [endingsFor, PendingTable.takenFor] at hendings
  have honce : s.app.router.table.taken.count i ≤ 1 :=
    List.nodup_iff_count_le_one.mp h.sound.once i
  have hended : (s.app.history i).countP Visit.isEnd = 0 ∧
      0 < s.app.router.table.taken.count i := by
    cases side with
    | tester =>
      change 0 < queuedIn s.app.testerWorker.queue i at hqueued
      omega
    | engine =>
      change 0 < queuedIn s.app.engineWorker.queue i at hqueued
      omega
  have hlt := h.sound.inRange i (List.count_pos_iff.mp hended.2)
  have hfound : s.app.cells[i]? = some s.app.cells[i] := Array.getElem?_eq_getElem hlt
  have hfaithful := (h.sound.orderly i _ hfound).faithful
  rw [history_of_getElem? hfound] at hended
  refine ⟨s.app.cells[i], ?_⟩
  cases hstage : s.app.cells[i].stage with
  | idle =>
    have hshows := hfaithful.shows
    rw [hstage] at hshows
    obtain ⟨⟨handler, hslot⟩, -⟩ := hshows
    exact ⟨handler, hfound, hslot⟩
  | busy terminal =>
    have hbusy := h.not_busy hidle howner terminal
    rw [stage, history_of_getElem? hfound] at hbusy
    exact absurd hstage hbusy
  | ended =>
    have hends := Stage.isEnd_of_after (Or.inl hstage)
    rw [hended.1] at hends
    cases hends

end Arrivals

end Scene
end Switchboard.App
