import Switchboard.Proofs.Run.Line
/-!
# Operations and tasks keep scenes in order

Whoever performs an operation puts nothing but traffic into the line in front of the tester, and not
even that behind the stop. A worker that begins with a task moves it from the queue to the log, and
when the stop gets there everything that it must come after was logged before.
-/
namespace Switchboard.App.Scene

section Changes

variable {owners : List Side} {s : Scene}

/-- Nothing is queued, taken or logged. -/
theorem Ordered.still (h : s.Ordered owners) {a : App} {busy : Side → Option Business}
    {runner : Runner} (haccounted : Accounted owners { s with app := a, busy, runner })
    (hlifecycle : a.lifecycle = s.app.lifecycle) (hrouter : a.router = s.app.router)
    (hqueue : ∀ side, (a.worker side).queue = (s.app.worker side).queue)
    (hheard : runner.heard ≤ s.app.rank) (hscheduled : runner.scheduled = s.runner.scheduled)
    (htester : runner.hasTester = true → a.tester.isSome)
    (haccepting : (a.worker .tester).accepting = !runner.closing)
    (hemptied : runner.closed = true → (s.app.worker .tester).queue = []) :
    Ordered owners { s with app := a, busy, runner } := by
  have htimeline : timeline { s with app := a, busy, runner } = s.timeline := by
    rw [timeline, timeline, hqueue]
  constructor
  · exact haccounted
  · exact h.inPhase.of_lifecycle hlifecycle hrouter hheard htester haccepting fun hclosed =>
      (hqueue .tester).trans (hemptied hclosed)
  · apply h.inLine.sublist (htimeline ▸ List.Sublist.refl _) (by rw [htimeline]) hscheduled
    rw [hqueue]
    exact List.Subset.refl _
  · exact h.settled

/-- Anything is performed, by anybody. What is logged are commands that were accepted. -/
theorem Ordered.proceeds (h : s.Ordered owners) {owners' : List Side} {a : App} {runner : Runner}
    {entries : List Entry} (howners : owners <+: owners') (hsound : a.Sound 0)
    (hcalm : Calm s.app a) (hproceeds : Proceeds owners' s.app a)
    (hentries : ∀ entry ∈ entries, s.app.router.closed = false ∧ ∃ i, entry = .sent i ∧
      owners'[i]? = some .tester ∧ i ∈ a.router.table.taken)
    (hrunner : Runner.Alike s.runner runner) :
    Ordered owners' { s with app := a, runner, log := s.log ++ entries } := by
  have hunseen : entries.filterMap Entry.occasion? = [] := by
    apply List.filterMap_eq_nil_iff.mpr
    intro entry hentry
    obtain ⟨-, i, rfl, -⟩ := hentries entry hentry
    rfl
  -- a command that is accepted is sent before the stop
  have hnone (hhushed : s.app.Hushed) : entries = [] := by
    apply List.eq_nil_iff_forall_not_mem.mpr
    intro entry hentry
    have hopen := (hentries entry hentry).1
    rw [hhushed.closed] at hopen
    cases hopen
  obtain ⟨more, hqueue, hmore⟩ := hproceeds.queue .tester
  have htimeline : timeline { s with app := a, runner, log := s.log ++ entries } =
      s.timeline ++ more.filterMap occasionOf := by
    rw [timeline, timeline, hqueue, List.filterMap_append, List.filterMap_append, hunseen,
      List.append_nil, List.append_assoc]
  have htraffic {occasion : Occasion} (hmem : occasion ∈ more.filterMap occasionOf) :
      occasion = .traffic ∧ ¬ s.app.Hushed := by
    obtain ⟨task, htask, hoccasion⟩ := List.mem_filterMap.mp hmem
    exact hmore task htask occasion hoccasion
  constructor
  · refine h.accounted.proceeds howners hsound hproceeds.placed hcalm fun i hi => ?_
    obtain ⟨-, k, heq, howner, htaken⟩ := hentries _ hi
    cases heq
    exact ⟨howner, htaken⟩
  · constructor
    · exact hproceeds.paced
    · rw [hrunner.heard]
      exact Nat.le_trans h.inPhase.heard hproceeds.rank
    · rw [hrunner.hasTester, hproceeds.tester]
      exact h.inPhase.tester
    · rw [hrunner.closing, hcalm.persists.accepting]
      exact h.inPhase.accepting
    · rw [hrunner.closed]
      intro hclosed
      have hshut : (s.app.worker .tester).accepting = false := by
        rw [h.inPhase.accepting, Runner.closing_of_closed hclosed]
        rfl
      exact (hcalm.persists.queue .tester hshut).trans (h.inPhase.emptied hclosed)
  · apply h.inLine.append htimeline
    · have hnothing : (more.filterMap occasionOf).filterMap Occasion.phase? = [] := by
        apply List.filterMap_eq_nil_iff.mpr
        intro occasion hmem
        rw [(htraffic hmem).1]
        rfl
      rw [hnothing, List.append_nil, hrunner.scheduled]
    · -- a stop is in the line only after everything was cancelled
      intro hstop hmem
      obtain ⟨-, hloud⟩ := htraffic hmem
      rcases List.mem_append.mp hstop with hstop | hstop
      · exact hloud (h.hushed hstop)
      · cases (htraffic hstop).1
    · intro callback hmem
      obtain ⟨more', hqueue', hmore'⟩ := hproceeds.queue .engine
      rw [hqueue'] at hmem
      rcases List.mem_append.mp hmem with hmem | hmem
      · exact h.inLine.engine callback hmem
      · cases (hmore' _ hmem _ rfl).1
  · apply h.settled.append rfl
    · intro hstop i
      rw [hnone (h.hushed_of_log hstop)]
      exact List.not_mem_nil
    · intro hstop
      obtain ⟨-, k, heq, -⟩ := hentries _ hstop
      cases heq

end Changes

section Tasks

variable {owners : List Side} {s : Scene} {task : Task Job} {tasks : List (Task Job)}

/-- What the extension's worker begins with does not concern the tester. -/
theorem Ordered.log_engine (h : s.Ordered owners)
    (hqueue : (s.app.worker .engine).queue = task :: tasks) (runner : Runner) :
    (start { s with app := s.app.popped .engine, runner } .engine task).log = s.log := by
  have hmem : task ∈ (s.app.worker .engine).queue := hqueue ▸ List.mem_cons_self
  cases task with
  | mark => rfl
  | job job =>
    cases job with
    | resume i outcome terminal =>
      have howner := h.accounted.placed.queued .engine i outcome terminal hmem
      have hplaced := h.accounted.placed.popped .engine
      change (Scene.resume _ .engine i outcome terminal).log = s.log
      rw [Scene.resume, Array.getD_eq_getD_getElem?]
      dsimp only
      cases hfound : (s.app.popped .engine).cells[i]? with
      | none => exact List.append_nil _
      | some c =>
        rcases takeOut_cases c outcome terminal with ⟨handler, n, hslot, htaken, -⟩ | ⟨hnone, -⟩
        · have hside := hplaced.handlers i c handler hfound hslot
          rw [howner] at hside
          dsimp only [Option.getD_some]
          rw [htaken]
          dsimp only [occupy]
          rw [← Option.some.inj hside]
          exact List.append_nil _
        · dsimp only [Option.getD_some]
          rw [hnone]
          exact List.append_nil _
    | phase callback => exact absurd hmem (h.inLine.engine callback)
    | arrival msg => exact List.append_nil _
    | initExtension properties => exact List.append_nil _
    | startExtension => exact List.append_nil _
    | completion completion => exact List.append_nil _

/-- As long as phases are queued for the tester, it is installed. -/
theorem Ordered.isSome_tester (h : s.Ordered owners) {callback : PhaseCallback}
    (hmem : .job (.phase callback) ∈ (s.app.worker .tester).queue) : s.app.tester.isSome := by
  have hscheduled : callback ∈ s.runner.scheduled := by
    rw [← h.inLine.phases]
    apply List.mem_filterMap.mpr
    exact ⟨.phase callback, List.mem_append_right _ (List.mem_filterMap.mpr ⟨_, hmem, rfl⟩), rfl⟩
  have hopen : s.runner.closed = false := by
    apply Bool.eq_false_iff.mpr
    intro hclosed
    rw [h.inPhase.emptied hclosed] at hmem
    cases hmem
  exact h.inPhase.tester (Runner.hasTester_of_mem hscheduled hopen)

/-- What the tester is called for moves from its queue to the log; what it is not called for is
gone. -/
theorem Ordered.log_tester (h : s.Ordered owners)
    (hqueue : (s.app.worker .tester).queue = task :: tasks) (runner : Runner) :
    ∃ entries, (start { s with app := s.app.popped .tester, runner } .tester task).log =
        s.log ++ entries ∧
      (entries.filterMap Entry.occasion?).Sublist (occasionOf task).toList ∧
      (entries.filterMap Entry.occasion?).filterMap Occasion.phase? =
        (occasionOf task).toList.filterMap Occasion.phase? := by
  obtain ⟨entries, hlog, hentries⟩ :=
    log_start { s with app := s.app.popped .tester, runner } .tester task
  refine ⟨entries, hlog, ?_⟩
  rcases hentries with rfl | ⟨entry, occasion, rfl, hentry, hoccasion⟩
  · refine ⟨List.nil_sublist _, ?_⟩
    cases hoccasion : occasionOf task with
    | none => rfl
    | some occasion =>
      cases occasion with
      | traffic => rfl
      | phase callback =>
        -- a phase does not go by without being logged
        obtain rfl := eq_of_occasionOf hoccasion
        have hinstalled : (s.app.popped .tester).tester.isSome := by
          rw [App.popped, tester_setWorker]
          exact h.isSome_tester (hqueue ▸ List.mem_cons_self)
        change s.log ++ (if (s.app.popped .tester).tester.isSome then _ else _) = _ at hlog
        rw [if_pos hinstalled] at hlog
        cases List.append_cancel_left hlog
  · rw [hoccasion, List.filterMap_cons, hentry]
    exact ⟨List.Sublist.refl _, rfl⟩

/-- The line after a worker has begun with a task: nothing has come to it, and no phase is lost. -/
theorem Ordered.timeline_take (h : s.Ordered owners) {side : Side}
    (hqueue : (s.app.worker side).queue = task :: tasks) (runner : Runner) :
    (start { s with app := s.app.popped side, runner } side task).timeline.Sublist s.timeline ∧
      (start { s with app := s.app.popped side, runner } side task).timeline.filterMap
        Occasion.phase? = s.timeline.filterMap Occasion.phase? := by
  obtain ⟨hunshaken, -⟩ := unshaken_start { s with app := s.app.popped side, runner } side task
  have hleft : ((start { s with app := s.app.popped side, runner } side task).app.worker
      .tester).queue = if side = .tester then tasks else (s.app.worker .tester).queue := by
    rw [hunshaken.queue, queue_popped, hqueue]
    rfl
  cases side with
  | engine =>
    rw [timeline, hleft, h.log_engine hqueue runner]
    exact ⟨List.Sublist.refl _, rfl⟩
  | tester =>
    obtain ⟨entries, hlog, hsublist, hphases⟩ := h.log_tester hqueue runner
    have hbefore : s.timeline = s.log.filterMap Entry.occasion? ++
        ((occasionOf task).toList ++ tasks.filterMap occasionOf) := by
      rw [timeline, hqueue, List.filterMap_cons]
      cases occasionOf task with
      | none => rfl
      | some occasion => rfl
    have hafter : (start { s with app := s.app.popped .tester, runner } .tester task).timeline =
        s.log.filterMap Entry.occasion? ++
          (entries.filterMap Entry.occasion? ++ tasks.filterMap occasionOf) := by
      rw [timeline, hleft, if_pos rfl, hlog, List.filterMap_append, List.append_assoc]
    rw [hbefore, hafter]
    constructor
    · exact (List.Sublist.refl _).append (hsublist.append (List.Sublist.refl _))
    · simp only [List.filterMap_append, hphases]

/-- When the tester's worker begins with the stop, every command of the tester was ended. -/
theorem Ordered.settled_take (h : s.Ordered owners) {side : Side} (hidle : s.busy side = none)
    (hqueue : (s.app.worker side).queue = task :: tasks) (runner : Runner) :
    (start { s with app := s.app.popped side, runner } side task).Settled := by
  obtain ⟨entries, hlog, hentries⟩ :=
    log_start { s with app := s.app.popped side, runner } side task
  have hnew (i : Nat) : .sent i ∉ entries := by
    intro hi
    rcases hentries with rfl | ⟨entry, occasion, rfl, hentry, -⟩
    · cases hi
    · rw [← List.mem_singleton.mp hi] at hentry
      cases hentry
  refine h.settled.append hlog (fun _ => hnew) fun hstop i hi => ?_
  have hsent : .sent i ∈ s.log := by
    rw [hlog] at hi
    exact (List.mem_append.mp hi).resolve_right (hnew i)
  rcases hentries with rfl | ⟨entry, occasion, rfl, hentry, hoccasion⟩
  · cases hstop
  · obtain rfl := List.mem_singleton.mp hstop
    cases hentry
    obtain rfl := eq_of_occasionOf hoccasion
    cases side with
    | engine => exact absurd (hqueue ▸ List.mem_cons_self) (h.inLine.engine .stop)
    | tester => exact h.all_heard hidle hqueue hsent

/-- A worker begins with its oldest task. -/
theorem Ordered.take (h : s.Ordered owners) {side : Side} (hidle : s.busy side = none)
    (hqueue : (s.app.worker side).queue = task :: tasks) :
    (start { s with app := s.app.popped side, runner := s.runner.countDown side } side
      task).Ordered owners := by
  have haccounted := h.accounted.start hidle hqueue (s.runner.countDown side)
  obtain ⟨hunshaken, hrunner⟩ := unshaken_start
    { s with app := s.app.popped side, runner := s.runner.countDown side } side task
  have halike := s.runner.alike_countDown side
  obtain ⟨hsublist, hphases⟩ := h.timeline_take hqueue (s.runner.countDown side)
  have hsettled := h.settled_take hidle hqueue (s.runner.countDown side)
  set s' := start { s with app := s.app.popped side, runner := s.runner.countDown side } side task
  change s'.runner = s.runner.countDown side at hrunner
  rw [← hrunner] at halike
  have hlifecycle : s'.app.lifecycle = s.app.lifecycle :=
    hunshaken.lifecycle.trans (lifecycle_setWorker s.app side _)
  have hrouter : s'.app.router = s.app.router :=
    hunshaken.router.trans (router_setWorker s.app side _)
  have hqueues (other : Side) : (s'.app.worker other).queue =
      if side = other then tasks else (s.app.worker other).queue := by
    rw [hunshaken.queue, queue_popped, hqueue]
    rfl
  constructor
  · exact haccounted
  · apply h.inPhase.of_lifecycle hlifecycle hrouter
    · rw [halike.heard]
      exact h.inPhase.heard
    · rw [halike.hasTester, hunshaken.tester]
      intro htester
      rw [App.popped, tester_setWorker]
      exact h.inPhase.tester htester
    · rw [halike.closing, hunshaken.accepting, accepting_popped]
      exact h.inPhase.accepting
    · rw [halike.closed, hqueues]
      intro hclosed
      have hempty := h.inPhase.emptied hclosed
      split
      · next heq =>
        subst heq
        rw [hqueue] at hempty
        cases hempty
      · exact hempty
  · apply h.inLine.sublist hsublist hphases halike.scheduled
    rw [hqueues]
    split
    · next heq =>
      subst heq
      rw [hqueue]
      exact List.subset_cons_self task tasks
    · exact List.Subset.refl _
  · exact hsettled

end Tasks

section Operations

variable {owners : List Side} {s : Scene}

/-- Anybody performs an operation. A command that is accepted was sent while the router was open. -/
theorem Ordered.operate (h : s.Ordered owners) (op : Operation) :
    Ordered (owners ++ op.owners)
      { s with
        app := (op.perform.run s.app).2
        log := s.log ++ op.entries s.app (op.perform.run s.app).1 } := by
  obtain ⟨hsound, hcalm⟩ := op.keeps s.app 0 h.accounted.sound
  have hproceeds := op.proceeds h.accounted.placed h.inPhase.paced
  exact h.proceeds (List.prefix_append _ _) hsound hcalm hproceeds
    (fun entry hentry => h.accounted.sent_of_operate hentry) (.refl _)

/-- Anybody takes notes. -/
theorem Ordered.note (h : s.Ordered owners) (notes : App) :
    Ordered owners { s with app := s.app.annotate notes } := by
  have hsame : Same s.app (s.app.annotate notes) := rfl
  have haccounted := h.accounted.stay (h.accounted.sound.same hsame)
    (h.accounted.placed.unmoved ⟨rfl, fun _ => rfl, rfl⟩) rfl rfl s.runner
  exact h.still haccounted rfl rfl (fun _ => rfl) h.inPhase.heard rfl h.inPhase.tester
    h.inPhase.accepting h.inPhase.emptied

/-- A job ends. -/
theorem Ordered.finish (h : s.Ordered owners) {side : Side} {business : Business}
    (hbusy : s.busy side = some business) (ended : Except Panic Unit) :
    Ordered owners
      { s with
        app := (s.app.ending business).counted side ended
        busy := Function.update s.busy side none } := by
  have hunshaken := unshaken_ended s.app business side ended
  refine h.still (h.accounted.finish hbusy ended) hunshaken.lifecycle hunshaken.router
    hunshaken.queue h.inPhase.heard rfl ?_ ?_ h.inPhase.emptied
  · rw [hunshaken.tester]
    exact h.inPhase.tester
  · rw [hunshaken.accepting]
    exact h.inPhase.accepting

end Operations

end Switchboard.App.Scene
