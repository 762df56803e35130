import Switchboard.Proofs.Run.Order
/-!
# Runners keep scenes in order

A runner queues the phases of its tester in their order, each when it was announced, and goes on to
the end when the last one was. From the stop on everything is cancelled and nothing can be sent, so
the workers may be shut down.
-/
namespace Switchboard.App.Scene

section Runner

variable {owners : List Side} {s : Scene}

/-- A tester is installed. -/
theorem Ordered.call (h : s.Ordered owners) (hidle : s.runner = .idle) (tester : TesterScript) :
    Ordered owners
      { s with app := { s.app with tester := some tester }, runner := .installed } := by
  have hsame : Same s.app { s.app with tester := some tester } := rfl
  have haccounted := h.accounted.stay (h.accounted.sound.same hsame)
    (h.accounted.placed.unmoved ⟨rfl, fun _ => rfl, rfl⟩) rfl rfl .installed
  have haccepting := h.inPhase.accepting
  rw [hidle] at haccepting
  refine h.still haccounted rfl rfl (fun _ => rfl) (Nat.zero_le _) ?_ (fun _ => rfl) haccepting
    nofun
  rw [hidle]
  rfl

/-- The runner does something that leaves everything in its place. -/
theorem Ordered.become (h : s.Ordered owners) {α : Type} {p : Program α} (hkeeps : Keeps p)
    (hbehaves : Behaves owners α p) {next : α → Runner}
    (hnext : Runner.Alike s.runner (next (p.run s.app).1)) :
    (s.become p next).Ordered owners := by
  obtain ⟨hsound, hcalm⟩ := hkeeps s.app 0 h.accounted.sound
  obtain ⟨hgrows, hhushed⟩ := hbehaves s.app h.accounted.placed
  have hentries : ∀ entry ∈ ([] : List Entry), s.app.router.closed = false ∧ ∃ i,
      entry = .sent i ∧ owners[i]? = some .tester ∧ i ∈ (p.run s.app).2.router.table.taken :=
    fun _ hentry => nomatch hentry
  have hproceeds := h.proceeds (List.prefix_refl owners) hsound hcalm
    (h.inPhase.paced.proceeds hgrows hhushed) hentries hnext
  rw [List.append_nil] at hproceeds
  exact hproceeds

/-- The runner begins to wait for a worker. -/
theorem Ordered.flush (h : s.Ordered owners) {side : Side}
    (hnext : ∀ left, Runner.Alike s.runner (.draining side left)) :
    (s.flush side).Ordered owners := by
  have hget : Behaves owners _ (Program.worker side).get := by
    have hsame (a : App) : ((Program.worker side).get.run a).2 = a := by
      cases side
      · rfl
      · rfl
    apply behaves_of_unmoved
    · intro a
      rw [hsame]
      exact ⟨rfl, fun _ => rfl, rfl⟩
    · exact fun a => congrArg App.lifecycle (hsame a)
    · exact fun a => congrArg App.tester (hsame a)
  apply h.become
  · exact (keeps_flush side).bind fun _ => (keeps_worker_get side).bind fun _ => keeps_pure _
  · exact composes_behaves.bind (behaves_accept side .mark rfl nofun) fun _ =>
      composes_behaves.bind hget fun _ => composes_behaves.pure _
  · exact hnext _

/-- The tester's worker takes a phase as long as it was not shut down. -/
theorem run_schedulePhase {a : App} (haccepting : (a.worker .tester).accepting = true)
    (callback : PhaseCallback) :
    ((Program.schedulePhase callback).run a).2 = a.enqueued .tester (.job (.phase callback)) := by
  change a.setWorker .tester ((a.worker .tester).accept (.job (.phase callback))).2 = _
  rw [Worker.accept_of_accepting haccepting]
  rfl

/-- The runner queues a callback of the tester. -/
theorem Ordered.schedule (h : s.Ordered owners) {callback : PhaseCallback} {runner : Runner}
    (hheard : runner.heard ≤ s.app.rank) (htester : s.runner.hasTester = true)
    (hopen : s.runner.closing = false) (hopen' : runner.closing = false)
    (hscheduled : runner.scheduled = s.runner.scheduled ++ [callback]) :
    (s.become (Program.schedulePhase callback) fun _ => runner).Ordered owners := by
  have haccepting : (s.app.worker .tester).accepting = true := by
    rw [h.inPhase.accepting, hopen]
    rfl
  obtain ⟨hsound, hcalm⟩ := keeps_schedulePhase callback s.app 0 h.accounted.sound
  rw [run_schedulePhase haccepting] at hsound hcalm
  rw [Scene.become, run_schedulePhase haccepting]
  have hplaced : (s.app.enqueued .tester (.job (.phase callback))).Placed owners := by
    apply h.accounted.placed.setWorker
    · intro hshut
      exact absurd haccepting (Bool.eq_false_iff.mp hshut)
    · intro i outcome terminal hmem
      rcases List.mem_append.mp hmem with hmem | hmem
      · exact h.accounted.placed.queued .tester i outcome terminal hmem
      · cases List.mem_singleton.mp hmem
  have hqueue (side : Side) :
      ((s.app.enqueued .tester (.job (.phase callback))).worker side).queue =
        if .tester = side then (s.app.worker .tester).queue ++ [.job (.phase callback)]
        else (s.app.worker side).queue := by
    rw [App.enqueued, worker_setWorker]
    split
    · rfl
    · rfl
  have hlifecycle : (s.app.enqueued .tester (.job (.phase callback))).lifecycle = s.app.lifecycle :=
    lifecycle_setWorker s.app .tester _
  have hrouter : (s.app.enqueued .tester (.job (.phase callback))).router = s.app.router :=
    router_setWorker s.app .tester _
  have htester' : (s.app.enqueued .tester (.job (.phase callback))).tester = s.app.tester :=
    tester_setWorker s.app .tester _
  have haccepting' : ((s.app.enqueued .tester (.job (.phase callback))).worker .tester).accepting =
      true := (hcalm.persists.accepting .tester).trans haccepting
  set a := s.app.enqueued .tester (.job (.phase callback))
  have htimeline : timeline { s with app := a, runner } = s.timeline ++ [.phase callback] := by
    rw [timeline, timeline, hqueue, if_pos rfl, List.filterMap_append, List.append_assoc]
    rfl
  constructor
  · exact h.accounted.calm hsound hplaced hcalm runner
  · refine h.inPhase.of_lifecycle hlifecycle hrouter hheard (fun _ => ?_) ?_ fun hclosed => ?_
    · rw [htester']
      exact h.inPhase.tester htester
    · rw [haccepting', hopen']
      rfl
    · rw [Runner.closing_of_closed hclosed] at hopen'
      cases hopen'
  · apply h.inLine.append htimeline hscheduled
    · intro _ htraffic
      cases List.mem_singleton.mp htraffic
    · intro other hmem
      rw [hqueue] at hmem
      exact h.inLine.engine other hmem
  · exact h.settled

/-- The runner has heard of the last phase. -/
theorem Ordered.listened (h : s.Ordered owners) {runner : Runner}
    (hheard : runner.heard ≤ s.app.rank) (hscheduled : runner.scheduled = s.runner.scheduled)
    (htester : runner.hasTester = true → s.runner.hasTester = true)
    (hopen : s.runner.closing = false) (hopen' : runner.closing = false) :
    Ordered owners { s with runner } := by
  have haccounted := h.accounted.stay h.accounted.sound h.accounted.placed rfl rfl runner
  refine h.still haccounted rfl rfl (fun _ => rfl) hheard hscheduled
    (fun hinstalled => h.inPhase.tester (htester hinstalled)) ?_ fun hclosed => ?_
  · rw [hopen', ← hopen]
    exact h.inPhase.accepting
  · rw [Runner.closing_of_closed hclosed] at hopen'
    cases hopen'

/-- The runner answers the next announcement. -/
theorem Ordered.answer (h : s.Ordered owners) {seen : Nat} (hrunner : s.runner = .listening seen)
    {event : PhaseEvent} (hevent : s.app.lifecycle.announced[seen]? = some event) :
    (s.become (Program.answerPhase event) fun last =>
      if last then .finished else .listening (seen + 1)).Ordered owners := by
  rw [h.inPhase.paced.announced, List.getElem?_take] at hevent
  split at hevent
  · next hlt =>
    have hscheduled := Runner.scheduled_listening_succ hevent
    rw [← hrunner] at hscheduled
    have htester : s.runner.hasTester = true := by rw [hrunner]; rfl
    have hopen : s.runner.closing = false := by rw [hrunner]; rfl
    cases event with
    | started =>
      rw [callbackFor, Option.toList_none, List.append_nil] at hscheduled
      exact h.listened hlt hscheduled (fun _ => htester) hopen rfl
    | stopping => exact h.schedule hlt htester hopen rfl hscheduled
    | stopped => exact h.schedule hlt htester hopen rfl hscheduled
    | deinited =>
      have hlast : seen = 3 := by
        rcases seen with _ | _ | _ | _ | seen
        · cases hevent
        · cases hevent
        · cases hevent
        · rfl
        · cases hevent
      subst hlast
      refine h.listened hlt ?_ (fun _ => htester) hopen rfl
      rw [hrunner]
      rfl
  · cases hevent

/-- The runner shuts a worker down, after everything was cancelled. -/
theorem Ordered.shutDown (h : s.Ordered owners) {side : Side} (hheard : s.runner.heard = 4)
    (hscheduled : (Runner.shutting side).scheduled = s.runner.scheduled)
    (htester : s.runner.hasTester = true) (hclosing : side ≠ .tester → s.runner.closing = true)
    (hemptied : side = .engine → (s.app.worker .tester).queue = []) :
    (s.become ((Program.worker side).modify .shutDown) fun _ => .shutting side).Ordered owners := by
  have hrank : 4 ≤ s.app.rank := hheard ▸ h.inPhase.heard
  obtain ⟨-, htable, hentries⟩ := h.inPhase.paced.hushed (Nat.le_trans (by decide) hrank)
  have hrun : (((Program.worker side).modify .shutDown).run s.app).2 =
      s.app.setWorker side (s.app.worker side).shutDown := rfl
  rw [Scene.become, hrun]
  have hsound := h.accounted.sound.shutDown htable hentries side
  have hplaced : (s.app.setWorker side (s.app.worker side).shutDown).Placed owners :=
    h.accounted.placed.setWorker side (fun _ => ⟨htable, hentries⟩)
      (h.accounted.placed.queued side)
  have haccounted := h.accounted.stay hsound hplaced (cells_setWorker s.app side _)
    (router_setWorker s.app side _) (.shutting side)
  refine h.still haccounted (lifecycle_setWorker s.app side _) (router_setWorker s.app side _)
    (fun other => ?_) hrank hscheduled (fun _ => ?_) ?_ fun hclosed => ?_
  · rw [worker_setWorker]
    split
    · next heq => exact heq ▸ rfl
    · rfl
  · rw [tester_setWorker]
    exact h.inPhase.tester htester
  · rw [worker_setWorker]
    split
    · rfl
    · next hne =>
      rw [h.inPhase.accepting, hclosing hne]
      rfl
  · cases side with
    | tester => cases hclosed
    | engine => exact hemptied rfl

/-- The runner returns when both workers have run out of tasks. -/
theorem Ordered.returned (h : s.Ordered owners) (hrunner : s.runner = .shutting .engine) :
    Ordered owners
      { s with app := { s.app with dropped := true, tester := none }, runner := .returned } := by
  have haccounted := h.accounted.stay h.accounted.sound.markDropped
    (h.accounted.placed.unmoved ⟨rfl, fun _ => rfl, rfl⟩) rfl rfl .returned
  have hheard := h.inPhase.heard
  have haccepting := h.inPhase.accepting
  have hemptied := h.inPhase.emptied
  rw [hrunner] at hheard haccepting hemptied
  refine h.still haccounted rfl rfl (fun _ => rfl) hheard ?_ nofun haccepting hemptied
  rw [hrunner]
  rfl

/-- The runner goes on. -/
theorem Ordered.proceed (h : s.Ordered owners) {s' : Scene} (hproceed : s.proceed = some s') :
    s'.Ordered owners := by
  cases goesOn_of_proceed hproceed with
  | start hrunner =>
    refine h.schedule (Nat.zero_le _) ?_ ?_ rfl ?_
    all_goals rw [hrunner]
    all_goals rfl
  | launch hrunner =>
    have hkeeps : Keeps ((Program.worker .engine).step (·.execute .startExtension)) :=
      keeps_execute .engine rfl trivial
    apply h.become hkeeps (behaves_accept .engine (.job .startExtension) rfl nofun)
    rw [hrunner]
    exact ⟨rfl, rfl, rfl, rfl, rfl⟩
  | answer seen event hrunner hevent => exact h.answer hrunner hevent
  | flushTester hrunner | flushEngine hrunner =>
    apply h.flush
    rw [hrunner]
    exact fun _ => ⟨rfl, rfl, rfl, rfl, rfl⟩
  | abort hrunner =>
    apply h.become (keeps_abort _) (behaves_abort _)
    rw [hrunner]
    exact ⟨rfl, rfl, rfl, rfl, rfl⟩
  | shutTester hrunner =>
    refine h.shutDown ?_ ?_ ?_ (fun hne => absurd rfl hne) nofun
    all_goals rw [hrunner]
    all_goals rfl
  | shutEngine hrunner hqueue =>
    refine h.shutDown ?_ ?_ ?_ (fun _ => ?_) fun _ => hqueue
    all_goals rw [hrunner]
    all_goals rfl
  | leave hrunner _ => exact h.returned hrunner

end Runner

section Acts

variable {owners : List Side} {s s' : Scene}

/-- Whatever act is performed. -/
theorem Ordered.perform (h : s.Ordered owners) {act : Act} (hact : s.perform act = some s') :
    ∃ owners', s'.Ordered owners' := by
  cases act with
  | operate op =>
    cases hact
    exact ⟨_, h.operate op⟩
  | note notes =>
    cases hact
    exact ⟨_, h.note notes⟩
  | take side =>
    obtain ⟨hidle, task, tasks, hqueue, rfl⟩ := take_eq_some hact
    exact ⟨_, h.take hidle hqueue⟩
  | finish side ended =>
    obtain ⟨business, hbusy, rfl⟩ := Option.map_eq_some_iff.mp hact
    exact ⟨_, h.finish hbusy ended⟩
  | call tester =>
    obtain ⟨hidle, rfl⟩ := call_eq_some hact
    exact ⟨_, h.call hidle tester⟩
  | proceed => exact ⟨_, h.proceed hact⟩

/-- However acts follow each other. -/
theorem Ordered.run (h : s.Ordered owners) {acts : List Act} (hrun : s.run acts = some s') :
    ∃ owners', s'.Ordered owners' := by
  induction acts generalizing s owners with
  | nil =>
    cases hrun
    exact ⟨owners, h⟩
  | cons act acts ih =>
    obtain ⟨next, hact, hrest⟩ := Option.bind_eq_some_iff.mp hrun
    obtain ⟨owners', hnext⟩ := h.perform hact
    exact ih hnext hrest

end Acts

end Switchboard.App.Scene
