import Switchboard.Proofs.Run.Counting
import Switchboard.Proofs.Run.Performances
/-!
# Programs as acts

What callbacks do is done by acts of somebody, and so are the tasks of workers; commands are counted
in both. A program that runs a tester to the end makes one run of those that scenes allow: nobody
else acts, and the workers take turns with the runner. The performances of that run make up the
chronicle of the program.
-/
namespace Switchboard.App

namespace Scene

/-- What becomes of a scene by acts that follow each other, when commands are counted. -/
def play (s : Scene) (acts : List Act) : Option Scene := s.tally (acts.map .act)

/-- A scene becomes another one by acts, and these are the performances among them. -/
structure Passes (s : Scene) (ps : List Performance) (s' : Scene) : Prop where
  play : ∃ acts, s.play acts = some s'
  run : ∃ acts, s.run acts = some s' ∧ s.performances (acts.map .act) = ps

/-- What acts during a callback leave as it is. -/
structure Leaves (s s' : Scene) : Prop where
  busy : s'.busy = s.busy
  runner : s'.runner = s.runner
  queue : ∀ side, (s.app.worker side).queue <+: (s'.app.worker side).queue

/-- A scene between two tasks, in which an application is run by somebody. -/
structure Rests (s : Scene) (a : App) (runner : Runner) : Prop where
  ordered : ∃ owners, s.Ordered owners
  app : s.app = a
  idle : ∀ side, s.busy side = none
  runner : s.runner = runner
  kept : a.dropped = false

/-- From wherever a scene rests, acts lead to where another one rests, and their performances are
the chronicle of what has happened between. -/
def Carries (a : App) (runner : Runner) (a' : App) (runner' : Runner) : Prop :=
  ∀ s : Scene, s.Rests a runner →
    ∃ ps s', s.Passes ps s' ∧ s'.Rests a' runner' ∧ Chronicles ps a a'

section Plays

variable {owners : List Side} {s s' s'' : Scene} {acts more : List Act}

theorem play_trans (h : s.play acts = some s') (h' : s'.play more = some s'') :
    s.play (acts ++ more) = some s'' := by
  induction acts generalizing s with
  | nil =>
    cases h
    exact h'
  | cons act acts ih =>
    obtain ⟨next, hact, hrest⟩ := Option.bind_eq_some_iff.mp h
    exact Option.bind_eq_some_iff.mpr ⟨next, hact, ih hrest⟩

theorem play_singleton {act : Act} (h : s.tallied (.act act) = some s') : s.play [act] = some s' :=
  Option.bind_eq_some_iff.mpr ⟨s', h, rfl⟩

theorem Passes.refl (s : Scene) : s.Passes [] s := ⟨⟨[], rfl⟩, [], rfl, rfl⟩

theorem Passes.trans {ps qs : List Performance} (h : s.Passes ps s') (h' : s'.Passes qs s'') :
    s.Passes (ps ++ qs) s'' := by
  obtain ⟨⟨played, hplay⟩, acts, hrun, rfl⟩ := h
  obtain ⟨⟨played', hplay'⟩, more, hrun', rfl⟩ := h'
  refine ⟨⟨_, play_trans hplay hplay'⟩, acts ++ more, ?_, ?_⟩
  · rw [run_append, hrun]
    exact hrun'
  · rw [List.map_append]
    exact performances_append ((course_map_act s acts).trans hrun) _

/-- To count is to take notes. -/
theorem passes_of_tallied (act : Act) (h : s.tallied (.act act) = some s') :
    s.Passes ((Deed.act act).performance? s).toList s' := by
  refine ⟨⟨[act], play_singleton h⟩, ?_⟩
  have hsingle (act : Act) (hact : s.perform act = some s') :
      ∃ acts, s.run acts = some s' ∧
        s.performances (acts.map .act) = ((Deed.act act).performance? s).toList :=
    ⟨[act], Option.bind_eq_some_iff.mpr ⟨s', hact, rfl⟩, performances_singleton hact⟩
  cases act with
  | operate op => exact hsingle (.operate op) h
  | note notes =>
    exact hsingle (.note { notes with
      counters := s.app.counters.beside notes.counters }) h
  | finish side ended => exact hsingle (.finish side ended) h
  | call tester => exact hsingle (.call tester) h
  | proceed => exact hsingle (.proceed) h
  | take side =>
    obtain ⟨began, htake, rfl⟩ := Option.map_eq_some_iff.mp h
    refine ⟨[.take side, .note (began.observe (began.log.drop s.log.length)).app], ?_, ?_⟩
    · exact Option.bind_eq_some_iff.mpr ⟨began, htake, rfl⟩
    · have hdeed : s.undergo (.act (.take side)) = some began := htake
      rw [List.map_cons, performances, gather_cons hdeed]
      exact List.append_nil _

theorem exists_passes_of_play (h : s.play acts = some s') : ∃ ps, s.Passes ps s' := by
  induction acts generalizing s with
  | nil =>
    cases h
    exact ⟨[], .refl s'⟩
  | cons act acts ih =>
    obtain ⟨next, hact, hrest⟩ := Option.bind_eq_some_iff.mp h
    obtain ⟨ps, hpasses⟩ := ih hrest
    exact ⟨_, (passes_of_tallied act hact).trans hpasses⟩

theorem exists_run_of_play (h : s.play acts = some s') : ∃ acts', s.run acts' = some s' := by
  obtain ⟨ps, -, acts', hrun, -⟩ := exists_passes_of_play h
  exact ⟨acts', hrun⟩

theorem Ordered.passes (h : s.Ordered owners) {ps : List Performance} (hpasses : s.Passes ps s') :
    ∃ owners', s'.Ordered owners' := by
  obtain ⟨-, acts, hrun, -⟩ := hpasses
  exact h.run hrun

end Plays

section Callbacks

variable {owners : List Side} {s s' s'' : Scene}

theorem Leaves.refl (s : Scene) : s.Leaves s := ⟨rfl, rfl, fun _ => List.prefix_refl _⟩

theorem Leaves.trans (h : s.Leaves s') (h' : s'.Leaves s'') : s.Leaves s'' where
  busy := h'.busy.trans h.busy
  runner := h'.runner.trans h.runner
  queue side := (h.queue side).trans (h'.queue side)

/-- Whatever is made of operations and notes is done by acts. -/
theorem Ordered.exists_operates (h : s.Ordered owners) {α : Type} {p : Program α}
    (hp : Operates p) :
    ∃ s', s.Passes [] s' ∧ s'.app = (p.run s.app).2 ∧ s.Leaves s' := by
  induction hp generalizing s owners with
  | pure x => exact ⟨s, .refl s, rfl, .refl s⟩
  | @bind α β p f hp hf ihp ihf =>
    obtain ⟨s₁, hpasses, happ, hleaves⟩ := ihp h
    obtain ⟨owners₁, h₁⟩ := h.passes hpasses
    obtain ⟨s₂, hpasses₂, happ₂, hleaves₂⟩ := ihf (p.run s.app).1 h₁
    refine ⟨s₂, hpasses.trans hpasses₂, ?_, hleaves.trans hleaves₂⟩
    rw [happ₂, happ]
    rfl
  | @note α f hf =>
    obtain ⟨hnotes, hcommands⟩ := hf s.app
    have hbeside : s.app.counters.beside (f s.app).2.counters = (f s.app).2.counters := by
      simp only [Counters.commands, Counters.mk.injEq, and_true] at hcommands
      obtain ⟨hsent, hresults, hintermediate, hfailed, hcancelled⟩ := hcommands
      rw [Counters.beside, ← hsent, ← hresults, ← hintermediate, ← hfailed, ← hcancelled]
    refine ⟨_, passes_of_tallied (.note (f s.app).2) rfl, ?_, rfl, rfl, fun side => ?_⟩
    · change s.app.annotate { (f s.app).2 with
        counters := s.app.counters.beside (f s.app).2.counters } = _
      rw [hbeside]
      exact hnotes.symm
    cases side
    · exact List.prefix_refl _
    · exact List.prefix_refl _
  | perform op =>
    have hproceeds := op.proceeds h.accounted.placed h.inPhase.paced
    refine ⟨_, passes_of_tallied (.operate op) rfl, rfl, rfl, rfl, fun side => ?_⟩
    obtain ⟨more, hqueue, -⟩ := hproceeds.queue side
    exact ⟨more, hqueue.symm⟩

end Callbacks

section Tasks

variable {owners : List Side} {s : Scene} {side : Side} {task : Task Job} {tasks : List (Task Job)}

/-- A worker goes through a job and ends it. -/
theorem Ordered.exists_job (h : s.Ordered owners) {business : Business}
    (hbusy : s.busy side = some business) {body : Program (Except Panic Unit)}
    (hbody : Operates body) :
    ∃ s', s.Passes [] s' ∧
      s'.app = ((body.run s.app).2.ending business).counted side (body.run s.app).1 ∧
      s'.busy = Function.update s.busy side none ∧ s'.runner = s.runner ∧
      ∀ other, (s.app.worker other).queue <+: (s'.app.worker other).queue := by
  obtain ⟨s₁, hpasses, happ, hleaves⟩ := h.exists_operates hbody
  have hbusy₁ : s₁.busy side = some business := by rw [hleaves.busy, hbusy]
  have hunshaken := unshaken_ended s₁.app business side (body.run s.app).1
  have hfinish : s₁.Passes []
      { s₁ with
        app := (s₁.app.ending business).counted side (body.run s.app).1
        busy := Function.update s₁.busy side none } := by
    apply passes_of_tallied (.finish side (body.run s.app).1)
    change s₁.finish side (body.run s.app).1 = _
    rw [Scene.finish, hbusy₁]
    rfl
  refine ⟨_, hpasses.trans hfinish, ?_, ?_, hleaves.runner, fun other => ?_⟩
  · rw [← happ]
  · rw [← hleaves.busy]
  · rw [hunshaken.queue]
    exact hleaves.queue other

/-- A worker begins with a task, and what it calls is counted. -/
def begun (s : Scene) (side : Side) (task : Task Job) : Scene :=
  (s.start side task).observe ((s.start side task).log.drop s.log.length)

/-- When no handler of the tester is called, nothing is counted. -/
theorem begun_of_other {entries : List Entry} (hlog : (s.start side task).log = s.log ++ entries)
    (hentries : ∀ i outcome, .handler i outcome ∉ entries) : s.begun side task = s.start side task := by
  rw [begun, hlog, List.drop_left, observe, foldl_see_of_other hentries]

/-- A job is made of what its worker does when it begins with it, of operations and notes, and of
what it does when it ends it. -/
theorem exists_body (s : Scene) (side : Side) (job : Job) :
    ∃ business body, Operates body ∧
      (s.begun side (.job job)).busy = Function.update s.busy side (some business) ∧
      (body.run (s.begun side (.job job)).app).1 = ((Program.runJob side job).run s.app).1 ∧
      (body.run (s.begun side (.job job)).app).2.ending business =
        ((Program.runJob side job).run s.app).2 := by
  have hother {job : Job} {body : Program (Except Panic Unit)}
      (hjob : ∀ i outcome terminal, Task.job job ≠ .job (.resume i outcome terminal))
      (hbody : Operates body) (hrun : Program.runJob side job = body)
      (happ : (s.start side (.job job)).app = s.app)
      (hbusy : (s.start side (.job job)).busy = Function.update s.busy side (some .other)) :
      ∃ business body, Operates body ∧
        (s.begun side (.job job)).busy = Function.update s.busy side (some business) ∧
        (body.run (s.begun side (.job job)).app).1 = ((Program.runJob side job).run s.app).1 ∧
        (body.run (s.begun side (.job job)).app).2.ending business =
          ((Program.runJob side job).run s.app).2 := by
    obtain ⟨entries, hlog, hentries, -⟩ := start_of_other s side hjob
    rw [begun_of_other hlog hentries, happ, hrun]
    exact ⟨.other, body, hbody, hbusy, rfl, rfl⟩
  cases job with
  | resume i outcome terminal =>
    have hstep : ((Program.cell i).step (Continuation.takeOut outcome terminal)).run s.app =
        (((s.app.cells.getD i { slot := .released }).takeOut outcome terminal).1,
          s.app.setCell i ((s.app.cells.getD i { slot := .released }).takeOut outcome
            terminal).2) := rfl
    have hstart : s.start side (.job (.resume i outcome terminal)) =
        s.resume side i outcome terminal := rfl
    rw [begun, hstart, Scene.resume, Program.runJob, Continuation.resume, run_bind, hstep]
    dsimp only
    cases ((s.app.cells.getD i { slot := .released }).takeOut outcome terminal).1 with
    | none =>
      dsimp only [occupy]
      rw [List.drop_left]
      exact ⟨.other, pure (.ok ()), .pure _, rfl, rfl, rfl⟩
    | some call =>
      obtain ⟨handler, n⟩ := call
      have hbody := operates_handling handler n outcome
      dsimp only [occupy]
      rw [List.drop_left, observe, Continuation.callOut, run_bind, run_callHandler, observing]
      split
      · exact ⟨.call i handler terminal, _, hbody, rfl, rfl, rfl⟩
      · exact ⟨.call i handler terminal, _, hbody, rfl, rfl, rfl⟩
  | arrival msg => exact hother (by rintro _ _ _ ⟨⟩) (operates_runJob side rfl) rfl rfl rfl
  | initExtension properties =>
    exact hother (by rintro _ _ _ ⟨⟩) (operates_runJob side rfl) rfl rfl rfl
  | startExtension => exact hother (by rintro _ _ _ ⟨⟩) (operates_runJob side rfl) rfl rfl rfl
  | phase callback => exact hother (by rintro _ _ _ ⟨⟩) (operates_runJob side rfl) rfl rfl rfl
  | completion completion =>
    exact hother (by rintro _ _ _ ⟨⟩) (operates_runJob side rfl) rfl rfl rfl

/-- A worker takes its oldest task and goes through it to the end. -/
theorem Ordered.exists_task (h : s.Ordered owners) (hidle : s.busy side = none)
    (hqueue : (s.app.worker side).queue = task :: tasks) :
    ∃ s', s.Passes (s.app.performance? (.task side)).toList s' ∧
      s'.app = ((Program.advance side).run s.app).2 ∧ s'.busy = s.busy ∧
      s'.runner = s.runner.countDown side ∧ tasks <+: (s'.app.worker side).queue := by
  set began : Scene := { s with app := s.app.popped side, runner := s.runner.countDown side }
  have htake : s.Passes (s.app.performance? (.task side)).toList (began.begun side task) := by
    apply passes_of_tallied (.take side)
    change (s.take side).map _ = _
    rw [Scene.take, hidle, hqueue]
    rfl
  obtain ⟨owners', hstart⟩ := h.passes htake
  obtain ⟨hunshaken, hrunner⟩ := unshaken_start began side task
  have hleft : ((began.begun side task).app.worker side).queue = tasks := by
    change ((began.start side task).app.worker side).queue = tasks
    rw [hunshaken.queue, queue_popped, hqueue, if_pos rfl]
    rfl
  have hnext : ((Program.worker side).step Worker.next).run s.app =
      (some task, s.app.popped side) := by
    change ((s.app.worker side).next.1, s.app.popped side) = _
    rw [Worker.next, hqueue]
  rw [Program.advance, run_bind, hnext]
  cases task with
  | mark =>
    refine ⟨_, htake, ?_, rfl, rfl, hleft ▸ List.prefix_refl _⟩
    have hlog : (began.start side .mark).log = began.log ++ [] := (List.append_nil _).symm
    rw [begun_of_other hlog fun _ _ => List.not_mem_nil]
    rfl
  | job job =>
    obtain ⟨business, body, hbody, hbusy, hended, happ⟩ := exists_body began side job
    have hself : (began.begun side (.job job)).busy side = some business := by
      rw [hbusy, Function.update_self]
    obtain ⟨s', hpasses, happ', hbusy', hrunner', hqueue'⟩ := hstart.exists_job hself hbody
    have hboth := htake.trans hpasses
    rw [List.append_nil] at hboth
    refine ⟨s', hboth, ?_, ?_, hrunner'.trans hrunner, ?_⟩
    · rw [happ', hended, happ]
      rfl
    · rw [hbusy', hbusy, Function.update_idem, ← hidle, Function.update_eq_self]
    · rw [← hleft]
      exact hqueue' side

end Tasks

section Drives

variable {a a' a'' : App} {r r' r'' : Runner} {side : Side}

/-- Whenever nobody is busy, an application is steady. -/
theorem Rests.steady {s : Scene} (h : s.Rests a r) : a.Steady := by
  obtain ⟨⟨owners, hs⟩, rfl, hidle, -, hkept⟩ := h
  constructor
  · exact hs.accounted.sound
  · intro i terminal hbusy
    obtain ⟨side, handler, hcall⟩ := hs.accounted.busy i terminal hbusy
    rw [hidle] at hcall
    cases hcall
  · intro hdropped
    rw [hkept] at hdropped
    cases hdropped

theorem Carries.refl (a : App) (r : Runner) : Carries a r a r := fun s h =>
  ⟨[], s, .refl s, h, (Mute.refl a).chronicles⟩

theorem Carries.trans (h : Carries a r a' r') (h' : Carries a' r' a'' r'') :
    Carries a r a'' r'' := by
  intro s hs
  obtain ⟨ps, s', hpasses, hs', hchronicles⟩ := h s hs
  obtain ⟨qs, s'', hpasses', hs'', hchronicles'⟩ := h' s' hs'
  exact ⟨ps ++ qs, s'', hpasses.trans hpasses', hs'', hchronicles.trans hchronicles'⟩

theorem dropped_of_keeps {α : Type} {p : Program α} (hp : Keeps p) (ha : a.Steady) :
    (p.run a).2.dropped = a.dropped := (hp a 0 ha.sound).2.persists.dropped

/-- Whatever is made of operations and notes is done while everybody rests. -/
theorem Rests.exists_operates {s : Scene} (h : s.Rests a r) {α : Type} {p : Program α}
    (hp : Operates p) : ∃ s', s.Passes [] s' ∧ s'.Rests (p.run a).2 r := by
  have hsteady := h.steady
  obtain ⟨⟨owners, hordered⟩, rfl, hidle, rfl, hkept⟩ := h
  obtain ⟨s', hpasses, happ, hleaves⟩ := hordered.exists_operates hp
  refine ⟨s', hpasses, hordered.passes hpasses, happ, fun side => ?_, hleaves.runner, ?_⟩
  · rw [hleaves.busy]
    exact hidle side
  · exact (dropped_of_keeps hp.keeps hsteady).trans hkept

/-- A worker that has a task runs it. What was queued behind it is still queued then. -/
theorem Rests.exists_task {s : Scene} (h : s.Rests a r) {task : Task Job}
    {tasks : List (Task Job)} (hqueue : (a.worker side).queue = task :: tasks) :
    (∃ ps s', s.Passes ps s' ∧ s'.Rests ((Program.advance side).run a).2 (r.countDown side) ∧
      Chronicles ps a ((Program.advance side).run a).2) ∧
      tasks <+: (((Program.advance side).run a).2.worker side).queue := by
  have hsteady := h.steady
  obtain ⟨⟨owners, hs⟩, rfl, hidle, rfl, hkept⟩ := h
  obtain ⟨s', hpasses, happ, hbusy, hrunner, hqueue'⟩ := hs.exists_task (hidle side) hqueue
  have hchronicles := chronicles_advance s.app side
  rw [← happ] at hchronicles ⊢
  refine ⟨⟨_, s', hpasses, ⟨hs.passes hpasses, rfl, fun other => ?_, hrunner, ?_⟩, hchronicles⟩,
    hqueue'⟩
  · rw [hbusy]
    exact hidle other
  · rw [happ, (hsteady.sound.advance hsteady.quiet side).persists.dropped, popped,
      dropped_setWorker]
    exact hkept

/-- A worker without tasks has nothing to do. -/
theorem snd_run_advance_of_nil (hqueue : (a.worker side).queue = []) :
    ((Program.advance side).run a).2 = a := by
  rw [run_advance_of_nil hqueue, popped, Worker.next, hqueue]
  cases side
  · rfl
  · rfl

/-- A worker runs its oldest task while the runner waits for nothing of it. -/
theorem carries_advance (hr : ∀ side, r.countDown side = r) (side : Side) :
    Carries a r ((Program.advance side).run a).2 r := by
  intro s hs
  cases hqueue : (a.worker side).queue with
  | nil =>
    rw [snd_run_advance_of_nil hqueue]
    exact Carries.refl a r s hs
  | cons task tasks =>
    obtain ⟨hcarries, -⟩ := hs.exists_task hqueue
    rw [hr side] at hcarries
    exact hcarries

theorem carries_advanceAny (hr : ∀ side, r.countDown side = r) :
    Carries a r (Program.advanceAny.run a).2 r := by
  rw [Program.advanceAny, run_bind]
  have htester := carries_advance hr (a := a) .tester
  cases ((Program.advance .tester).run a).1 with
  | true => exact htester
  | false => exact htester.trans (carries_advance hr .engine)

theorem carries_settleWithin (hr : ∀ side, r.countDown side = r) (limit : Nat) :
    Carries a r ((Program.settleWithin limit).run a).2 r := by
  induction limit generalizing a with
  | zero => exact .refl a r
  | succ limit ih =>
    have hany := carries_advanceAny hr (a := a)
    rw [Program.settleWithin, run_bind]
    cases (Program.advanceAny.run a).1 with
    | true => exact hany.trans ih
    | false => exact hany

theorem carries_settle (hr : ∀ side, r.countDown side = r) :
    Carries a r (Program.settle.run a).2 r := by
  rw [Program.settle, run_bind]
  exact carries_settleWithin hr Program.settleLimit

theorem carries_advanceTimes (hr : ∀ side, r.countDown side = r) (side : Side) (n : Nat) :
    Carries a r ((Program.advanceTimes side n).run a).2 r := by
  induction n generalizing a with
  | zero => exact .refl a r
  | succ n ih => exact (carries_advance hr side).trans ih

/-- A worker runs as many tasks as the runner waits for. -/
theorem carries_drained {left : Nat} (hleft : left ≤ (a.worker side).queue.length) :
    Carries a (.draining side left) ((Program.advanceTimes side left).run a).2
      (.draining side 0) := by
  induction left generalizing a with
  | zero => exact .refl a _
  | succ left ih =>
    intro s hs
    cases hqueue : (a.worker side).queue with
    | nil =>
      rw [hqueue] at hleft
      cases hleft
    | cons task tasks =>
      obtain ⟨⟨ps, s', hpasses, hs', hchronicles⟩, hprefix⟩ := hs.exists_task hqueue
      -- what the task has queued stands behind what is waited for
      have hone : Runner.countDown side (.draining side (left + 1)) = .draining side left :=
        if_pos rfl
      rw [hone] at hs'
      rw [hqueue] at hleft
      have hrest := ih (Nat.le_trans (Nat.le_of_succ_le_succ hleft) hprefix.length_le)
      obtain ⟨qs, s'', hpasses', hs'', hchronicles'⟩ := hrest s' hs'
      exact ⟨ps ++ qs, s'', hpasses.trans hpasses', hs'', hchronicles.trans hchronicles'⟩

end Drives

section Runs

variable {a : App} {r : Runner}

/-- The runner goes on with a program. -/
theorem carries_become {α : Type} {p : Program α} {f : α → Runner}
    (hproceed : ∀ s : Scene, s.Rests a r → s.proceed = some (s.become p f))
    (hdropped : a.Steady → (p.run a).2.dropped = a.dropped) (hmute : Mute a (p.run a).2) :
    Carries a r (p.run a).2 (f (p.run a).1) := by
  intro s hs
  have hpasses : s.Passes [] (s.become p f) :=
    passes_of_tallied (.proceed) (hproceed s hs)
  have hsteady := hs.steady
  obtain ⟨⟨owners, hordered⟩, rfl, hidle, rfl, hkept⟩ := hs
  exact ⟨[], _, hpasses, ⟨hordered.passes hpasses, rfl, hidle, rfl, (hdropped hsteady).trans hkept⟩,
    hmute.chronicles⟩

/-- The runner goes on until it has heard of the last phase. -/
theorem carries_runOn {seen limit : Nat} (h : ((Program.runOn seen limit).run a).1 = true) :
    Carries a (.listening seen) ((Program.runOn seen limit).run a).2 .finished := by
  induction limit generalizing a seen with
  | zero => cases h
  | succ limit ih =>
    have hget : (get : Program App).run a = (a, a) := rfl
    rw [Program.runOn, run_bind, hget] at h ⊢
    dsimp only at h ⊢
    cases hevent : a.lifecycle.announced[seen]? with
    | some event =>
      have hanswer : Carries a (.listening seen) ((Program.answerPhase event).run a).2
          (if ((Program.answerPhase event).run a).1 then .finished else .listening (seen + 1)) := by
        refine carries_become
          (f := fun last : Bool => if last then .finished else .listening (seen + 1))
          (fun s hs => ?_) (dropped_of_keeps (keeps_answerPhase event))
          (makings_mutes.answerPhase event a)
        rw [proceed, hs.runner, hs.app]
        dsimp only
        rw [hevent]
        rfl
      rw [hevent] at h
      dsimp only at h ⊢
      rw [run_bind] at h ⊢
      cases hlast : ((Program.answerPhase event).run a).1 with
      | true =>
        rw [hlast] at hanswer
        exact hanswer
      | false =>
        rw [hlast] at hanswer h
        exact hanswer.trans (ih h)
    | none =>
      have hany := carries_advanceAny (r := .listening seen) (a := a) fun _ => rfl
      rw [hevent] at h
      dsimp only at h ⊢
      rw [run_bind] at h ⊢
      cases hran : (Program.advanceAny.run a).1 with
      | true =>
        rw [hran] at h
        exact hany.trans (ih h)
      | false =>
        rw [hran] at h
        cases h

/-- The runner waits until a worker has run all tasks that it has. -/
theorem carries_drain {side : Side}
    (hproceed : ∀ s : Scene, s.Rests a r → s.proceed = some (s.flush side)) :
    Carries a r ((Program.drain side).run a).2 (.draining side 0) := by
  let p : Program Nat := do
    let _ ← (Program.worker side).step (·.flush false)
    return (← (Program.worker side).get).queue.length
  have hkeeps : Keeps p :=
    (keeps_flush side).bind fun _ => (keeps_worker_get side).bind fun _ => keeps_pure _
  have hmute : Mute a (p.run a).2 := by
    refine (makings_mutes.accept side .mark a).trans ?_
    cases side with
    | tester => exact .refl _
    | engine => exact .refl _
  have hflush : Carries a r (p.run a).2 (.draining side (p.run a).1) :=
    carries_become hproceed (dropped_of_keeps hkeeps) hmute
  have hdrain : ((Program.drain side).run a).2 =
      ((Program.advanceTimes side (p.run a).1).run (p.run a).2).2 := by
    rw [Program.drain, run_bind, run_advanceQueued]
    cases side
    · rfl
    · rfl
  have hleft : (p.run a).1 = ((p.run a).2.worker side).queue.length := by
    cases side
    · rfl
    · rfl
  rw [hdrain]
  exact hflush.trans (carries_drained (Nat.le_of_eq hleft))

/-- The runner shuts a worker down and waits until it has run all its tasks. -/
theorem carries_shutDownWorker {side : Side}
    (hproceed : ∀ s : Scene, s.Rests a r →
      s.proceed = some (s.become ((Program.worker side).modify .shutDown) fun _ =>
        .shutting side)) :
    Carries a r ((Program.shutDownWorker side).run a).2 (.shutting side) := by
  have hshut := carries_become hproceed (fun _ => dropped_setWorker a side _)
    (mute_setWorker a side _)
  rw [Program.shutDownWorker, run_bind, run_advanceQueued]
  exact hshut.trans (carries_advanceTimes (fun _ => rfl) side _)

/-- Somebody installs a tester. -/
theorem Rests.exists_installed {s : Scene} (h : s.Rests a .idle) (tester : TesterScript) :
    ∃ s', s.Passes [] s' ∧ s'.Rests { a with tester := some tester } .installed := by
  have hpasses : s.Passes []
      { s with app := { s.app with tester := some tester }, runner := .installed } := by
    apply passes_of_tallied (.call tester)
    change s.perform (.call tester) = _
    rw [Scene.perform, h.runner]
  obtain ⟨⟨owners, hordered⟩, rfl, hidle, -, hkept⟩ := h
  exact ⟨_, hpasses, hordered.passes hpasses, rfl, hidle, rfl, hkept⟩

/-- Whoever has installed a tester starts both sides. -/
theorem carries_startRun (tester : TesterScript) :
    Carries { a with tester := some tester } .installed ((Program.startRun tester).run a).2
      (.listening 0) := by
  have hscheduled (b : App) : Carries b .installed ((Program.schedulePhase .start).run b).2
      .starting := by
    refine carries_become (f := fun _ => Runner.starting) (fun s hs => ?_)
      (dropped_of_keeps (keeps_schedulePhase .start)) (makings_mutes.schedulePhase .start b)
    rw [proceed, hs.runner]
  have hstarted (b : App) : Carries b .starting
      (((Program.worker .engine).step (·.execute .startExtension)).run b).2 (.listening 0) := by
    refine carries_become (f := fun _ => Runner.listening 0) (fun s hs => ?_)
      (dropped_of_keeps (keeps_execute .engine rfl trivial))
      (makings_mutes.accept .engine (.job .startExtension) b)
    rw [proceed, hs.runner]
  exact (hscheduled _).trans (hstarted _)

/-- The runner drops the application and returns. -/
theorem Rests.exists_drop {s : Scene} (h : s.Rests a (.draining .engine 0)) :
    ∃ ps s', s.Passes ps s' ∧ s'.runner = .returned ∧ s'.app = (Program.drop.run a).2 ∧
      Chronicles ps a (Program.drop.run a).2 := by
  set b := ((Program.abort "tester dropped").run a).2
  set c := ((Program.shutDownWorker .tester).run b).2
  set d := ((Program.shutDownWorker .engine).run c).2
  have hdrop : (Program.drop.run a).2 = { d with dropped := true, tester := none } := by
    have hget : (get : Program App).run a = (a, a) := rfl
    rw [Program.drop, run_bind, hget]
    dsimp only
    rw [h.kept]
    rfl
  have hb := (keeps_abort "tester dropped").stays a h.steady
  have hclosing : b.Closing := h.steady.sound.abort "tester dropped"
  obtain ⟨hc, htester⟩ : Leads b c ∧ c.Drained .tester :=
    hb.steady.shutDownAmid hclosing .tester (stays_pure PUnit.unit)
  obtain ⟨hd, hengine⟩ : Leads c d ∧ d.Drained .engine :=
    hc.steady.shutDownAmid (hc.wanes.closing hclosing) .engine (stays_pure PUnit.unit)
  have haborted : Carries a (.draining .engine 0) b .aborted := by
    refine carries_become (f := fun _ => Runner.aborted) (fun s hs => ?_)
      (dropped_of_keeps (keeps_abort "tester dropped"))
      ((undisturbs_abort "tester dropped").mutes a)
    rw [proceed, hs.runner]
  have hshut : Carries b .aborted c (.shutting .tester) := by
    refine carries_shutDownWorker fun s hs => ?_
    rw [proceed, hs.runner]
  have hshut' : Carries c (.shutting .tester) d (.shutting .engine) := by
    refine carries_shutDownWorker fun s hs => ?_
    rw [proceed, hs.runner]
    dsimp only
    rw [hs.idle, hs.app, htester.queue]
  obtain ⟨ps, s', hpasses, hs', hchronicles⟩ := (haborted.trans hshut).trans hshut' s h
  have hreturn : s'.Passes []
      (s'.become (modify fun a => { a with dropped := true, tester := none }) fun _ =>
        .returned) := by
    apply passes_of_tallied (.proceed)
    change s'.proceed = _
    rw [proceed, hs'.runner]
    dsimp only
    rw [hs'.idle, hs'.app, hengine.queue]
  have hleft : Mute d { d with dropped := true, tester := none } := mute_of_same rfl rfl rfl rfl
  refine ⟨_, _, hpasses.trans hreturn, rfl, ?_, ?_⟩
  · rw [hdrop, ← hs'.app]
    rfl
  · rw [hdrop]
    exact hchronicles.trans hleft.chronicles

/-- A run that its tester finishes waits for both sides and reports before it drops the
application. -/
theorem run_runToEnd {tester : TesterScript} {b c d e e' : App}
    (hb : ((Program.startRun tester).run a).2 = b)
    (hfinished : ((Program.runOn 0 Program.settleLimit).run b).1 = true)
    (hc : ((Program.runOn 0 Program.settleLimit).run b).2 = c)
    (hd : ((Program.drain .tester).run c).2 = d) (he : ((Program.drain .engine).run d).2 = e)
    (hsettled : (Program.settle.run e).2 = e') :
    (Program.runToEnd tester).run a =
      (.ok (Program.report.run e').1, (Program.drop.run e').2) := by
  have hreport : (Program.report.run e').2 = e' := rfl
  rw [Program.runToEnd, run_bind, hb, run_bind, hc, hfinished, if_pos rfl, run_bind, run_bind, hd,
    run_bind, he, run_bind, hsettled, run_bind, hreport]
  rfl

/-- A program that runs a tester to the end makes one of the runs that scenes allow, once the tester
is installed. It reports when nothing is left to do but to drop the application. -/
theorem Rests.exists_runToEnd {s : Scene} {tester : TesterScript}
    (h : s.Rests { a with tester := some tester } .installed) {report : RunReport}
    (hreport : ((Program.runToEnd tester).run a).1 = .ok report) :
    ∃ ps s', s.Passes ps s' ∧ s'.runner = .draining .engine 0 ∧
      report = (Program.report.run s'.app).1 ∧
      ∃ qs s'', s'.Passes qs s'' ∧ s''.runner = .returned ∧
        s''.app = ((Program.runToEnd tester).run a).2 ∧
        Chronicles (ps ++ qs) a ((Program.runToEnd tester).run a).2 := by
  obtain ⟨b, hb⟩ : ∃ b, ((Program.startRun tester).run a).2 = b := ⟨_, rfl⟩
  obtain ⟨c, hc⟩ : ∃ c, ((Program.runOn 0 Program.settleLimit).run b).2 = c := ⟨_, rfl⟩
  obtain ⟨d, hd⟩ : ∃ d, ((Program.drain .tester).run c).2 = d := ⟨_, rfl⟩
  obtain ⟨e, he⟩ : ∃ e, ((Program.drain .engine).run d).2 = e := ⟨_, rfl⟩
  obtain ⟨e', hsettled⟩ : ∃ e', (Program.settle.run e).2 = e' := ⟨_, rfl⟩
  cases hfinished : ((Program.runOn 0 Program.settleLimit).run b).1 with
  | false =>
    rw [Program.runToEnd, run_bind, hb, run_bind, hfinished] at hreport
    cases hreport
  | true =>
    have hstarted : Carries { a with tester := some tester } .installed b (.listening 0) :=
      hb ▸ carries_startRun tester
    have hran : Carries b (.listening 0) c .finished := hc ▸ carries_runOn hfinished
    have htester : Carries c .finished d (.draining .tester 0) :=
      hd ▸ carries_drain fun s hs => by rw [proceed, hs.runner]
    have hengine : Carries d (.draining .tester 0) e (.draining .engine 0) :=
      he ▸ carries_drain fun s hs => by rw [proceed, hs.runner]
    have hquiet : Carries e (.draining .engine 0) e' (.draining .engine 0) :=
      hsettled ▸ carries_settle fun _ => rfl
    obtain ⟨ps, s', hpasses, hs', hchronicles⟩ :=
      ((((hstarted.trans hran).trans htester).trans hengine).trans hquiet) s h
    obtain ⟨qs, s'', hpasses', hreturned, happ, hdropped⟩ := hs'.exists_drop
    rw [run_runToEnd hb hfinished hc hd he hsettled] at hreport ⊢
    have hinstalled : Mute a { a with tester := some tester } := mute_of_same rfl rfl rfl rfl
    refine ⟨ps, s', hpasses, hs'.runner, ?_, qs, s'', hpasses', hreturned, happ,
      hinstalled.chronicles.trans (hchronicles.trans hdropped)⟩
    rw [hs'.app]
    exact (Except.ok.inj hreport).symm

/-- A new application rests, and nobody runs it yet. -/
theorem rests_ofApp {config : Config} {name : Option String} {properties : String}
    {extension : Extension} {built : App}
    (hbuilt : build config name properties extension = .ok built) :
    (ofApp built).Rests built .idle := by
  have hordered := ordered_ofApp hbuilt
  obtain ⟨name, properties, rfl⟩ := eq_ofParts_of_build hbuilt
  exact ⟨⟨[], hordered⟩, rfl, fun _ => rfl, rfl, rfl⟩

/-- Whatever operations are performed on a new application before, a program that runs a tester on
it to the end makes one of the runs that scenes allow. The performances are those of the run from
when the tester is installed, and they are the chronicle of the program. -/
theorem exists_run_of_runToEnd {config : Config} {name : Option String} {properties : String}
    {extension : Extension} {built : App}
    (hbuilt : build config name properties extension = .ok built) {α : Type} {p : Program α}
    (hp : Operates p) {tester : TesterScript} {report : RunReport}
    (hreport : ((Program.runToEnd tester).run (p.run built).2).1 = .ok report) :
    ∃ acts more s s', (ofApp built).run acts = some s ∧
      (ofApp built).performances (acts.map .act) = [] ∧
      s.app = { (p.run built).2 with tester := some tester } ∧
      s.run more = some s' ∧ s'.runner = .returned ∧
      s'.app = ((Program.runToEnd tester).run (p.run built).2).2 ∧
      Chronicles (s.performances (more.map .act)) (p.run built).2
        ((Program.runToEnd tester).run (p.run built).2).2 := by
  obtain ⟨s, hprepared, hs⟩ := (rests_ofApp hbuilt).exists_operates hp
  obtain ⟨s₁, hinstalled, hs₁⟩ := hs.exists_installed tester
  obtain ⟨ps, s₂, hpasses, -, -, qs, s₃, hlast, hreturned, happ, hchronicles⟩ :=
    hs₁.exists_runToEnd hreport
  obtain ⟨-, acts, hrun, hnone⟩ := hprepared.trans hinstalled
  obtain ⟨-, more, hmore, hperformances⟩ := hpasses.trans hlast
  exact ⟨acts, more, s₁, s₃, hrun, hnone, hs₁.app, hmore, hreturned, happ,
    hperformances ▸ hchronicles⟩

end Runs

end Scene
end Switchboard.App
