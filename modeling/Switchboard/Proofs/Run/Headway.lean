import Switchboard.Proofs.Run.Replies
/-!
# The headway of the extension

Nobody can keep the extension from answering. At any time its worker can finish the job that it is
busy with and then, one after the other, all that are queued, and nothing new comes in by that: of
what the extension does nothing reaches the extension.
-/
namespace Switchboard.App

/-- A program that leaves it to others to close the router and to greet. -/
structure Refrains (α : Type) (p : Program α) : Prop where
  closed : ∀ a, (p.run a).2.router.closed = a.router.closed
  greeting : ∀ a, (p.run a).2.greeting = a.greeting

section Refrains

theorem composes_refrains : Composes Refrains where
  pure _ := ⟨fun _ => rfl, fun _ => rfl⟩
  bind hp hf := ⟨fun a => ((hf _).closed _).trans (hp.closed a),
    fun a => ((hf _).greeting _).trans (hp.greeting a)⟩

theorem refrains_accept (side : Side) (task : Task Job) :
    Refrains _ ((Program.worker side).step (·.accept task)) where
  closed a := congrArg Router.closed (router_setWorker a side _)
  greeting a := by
    cases side
    · rfl
    · rfl

theorem refrains_submit (d : Delivery Nat Side) : Refrains _ (Program.submit d) := by
  refine composes_refrains.bind (refrains_accept d.executor _) fun answer => ?_
  cases answer with
  | ok _ => exact composes_refrains.pure _
  | error e =>
    refine composes_refrains.bind ⟨fun _ => rfl, fun _ => rfl⟩ fun c => ?_
    split
    · exact ⟨fun _ => rfl, fun _ => rfl⟩
    · exact composes_refrains.pure _

theorem refrains_onTable {α : Type}
    (op : PendingTable Nat Side → α × List (Delivery Nat Side) × PendingTable Nat Side) :
    Refrains _ (Program.fabric.onTable op) := by
  refine composes_refrains.bind ⟨fun _ => rfl, fun _ => rfl⟩ fun (answer, deliveries) => ?_
  exact composes_refrains.bind (composes_refrains.forM refrains_submit deliveries) fun _ =>
    composes_refrains.pure answer

theorem fits_refrains : Composes.Fits Refrains Program.fabric where
  get := ⟨fun _ => rfl, fun _ => rfl⟩
  complete id result := refrains_onTable (·.complete id result)
  fail id fault := refrains_onTable (·.fail id fault)
  forward side msg := by
    change Refrains _ (Program.forward side msg)
    unfold Program.forward
    split
    · exact composes_refrains.pure _
    · exact refrains_accept side _

/-- What the extension does to say something. -/
theorem refrains_saying (a : App) (msg : Message) : Refrains _ (a.saying msg).perform := by
  cases msg with
  | cmd cmd =>
    refine composes_refrains.bind ⟨fun _ => rfl, fun _ => rfl⟩ fun i => ?_
    refine composes_refrains.bind (composes_refrains.bind ⟨fun _ => rfl, fun _ => rfl⟩ fun b => ?_)
      fun answer => ?_
    · exact composes_refrains.sendCmd fits_refrains (b.outlet .engine) cmd
        ⟨fun _ => rfl, fun _ => rfl⟩
    · cases answer with
      | error e => exact composes_refrains.pure _
      | ok id =>
        exact composes_refrains.bind ⟨fun _ => rfl, fun _ => rfl⟩ fun _ => composes_refrains.pure _
  | cmdResult | data | audioFrame | videoFrame =>
    exact composes_refrains.send fits_refrains.toReaches (a.outlet .engine) _

end Refrains

/-- The greeting is nobody's business but the extension's. -/
theorem Scene.greeting_start (s : Scene) (side : Side) (task : Task Job) :
    (start s side task).app.greeting = s.app.greeting := by
  cases task with
  | mark =>
    cases side
    · rfl
    · rfl
  | job job =>
    cases job with
    | resume i outcome terminal =>
      rw [start, resume]
      split
      · rfl
      · rfl
    | arrival | phase | initExtension | startExtension | completion => rfl

theorem greeting_counted_ending (a : App) (business : Business) (side : Side)
    (ended : Except Panic Unit) : ((a.ending business).counted side ended).greeting = a.greeting := by
  cases side
  · cases business
    · rfl
    · rfl
  · cases business
    · rfl
    · rfl

/-- What is sent to the tester is handed to nobody else. -/
theorem share_handing?_tester {a : App} {extension : String}
    (hroutes : a.router.routes = bothRoutes extension) (msg : Message) :
    share .engine (a.handing? .tester msg) = [] := by
  rw [handing?]
  cases hreceiver : a.receiver? .tester msg with
  | none => rfl
  | some side =>
    obtain ⟨hresolve, -⟩ := receiver?_eq_some_iff.mp hreceiver
    rw [Router.resolve, Router.endpoint?, hroutes] at hresolve
    cases hresolve
    rfl

/-- What the extension says is not for itself. -/
theorem share_handed?_saying {a : App} {extension : String}
    (hroutes : a.router.routes = bothRoutes extension) {msg : Message} (hmsg : msg.Plain)
    (answer : (a.saying msg).Answer) : share .engine ((a.saying msg).handed? a answer) = [] := by
  have hdest : (a.outlet .engine).destination msg.dest = .tester := by
    rw [hmsg.dest]
    rfl
  cases msg with
  | cmd cmd =>
    cases answer with
    | error e => rfl
    | ok id =>
      change share .engine (a.handing? ((a.outlet .engine).destination cmd.dest) _) = []
      exact hdest ▸ share_handing?_tester hroutes _
  | cmdResult | data | audioFrame | videoFrame =>
    cases answer with
    | error e => rfl
    | ok _ =>
      change share .engine (a.handing? ((a.outlet .engine).destination _) _) = []
      exact hdest ▸ share_handing?_tester hroutes _

/-- Whether a part of a parley is the extension's own: it goes on with its plan, or its worker begins
with a task or ends a job. -/
def Part.isOwn : Part → Bool
  | .reply | .deed (.act (.take .engine)) | .deed (.act (.finish .engine _)) => true
  | .deed _ => false

namespace Parley

/-- A parley becomes another one by parts that are the extension's own, and nothing comes in. -/
structure Headway (p p' : Parley) : Prop where
  parts : ∃ parts, (∀ part ∈ parts, part.isOwn = true) ∧ p.run parts = some p'
  told : p'.told = p.told
  line : p'.line = p.line

/-- The extension has carried out its plan, and its worker is idle. -/
structure Rests (p : Parley) : Prop where
  plan : p.plan = []
  idle : p.scene.busy .engine = none

section Headway

variable {extension : String} {properties : Json} {p p' p'' : Parley}

theorem run_append (p : Parley) (parts more : List Part) :
    p.run (parts ++ more) = (p.run parts).bind fun p => p.run more := by
  induction parts generalizing p with
  | nil => rfl
  | cons part parts ih =>
    cases h : p.step part with
    | none => simp [run, h]
    | some p' => simp [run, h, ih]

theorem Headway.refl (p : Parley) : p.Headway p :=
  ⟨⟨[], fun _ hpart => absurd hpart List.not_mem_nil, rfl⟩, rfl, rfl⟩

theorem Headway.trans (h : p.Headway p') (h' : p'.Headway p'') : p.Headway p'' := by
  obtain ⟨parts, hown, hrun⟩ := h.parts
  obtain ⟨more, hown', hrun'⟩ := h'.parts
  refine ⟨⟨parts ++ more, fun part hpart => ?_, ?_⟩, h'.told.trans h.told, h'.line.trans h.line⟩
  · exact (List.mem_append.mp hpart).elim (hown part) (hown' part)
  · rw [run_append, hrun]
    exact hrun'

theorem Headway.standing (h : p.Headway p') (hstanding : p.Standing extension properties) :
    p'.Standing extension properties := by
  obtain ⟨parts, -, hrun⟩ := h.parts
  exact hstanding.run hrun

/-- What may be done can be done, if the router stays open and nobody takes the extension's notes. -/
theorem step_deed {deed : Deed} {s : Scene} (hallows : p.allows deed = true)
    (hdeed : p.scene.undergo deed = some s)
    (hstays : s.app.router.closed = false ∧ s.app.greeting = p.scene.app.greeting) :
    p.step (.deed deed) = some (p.after deed p.plan [] s) := by
  rw [Parley.step, if_pos hallows, follow, hdeed]
  exact if_pos hstays

/-- Nothing comes in by a part that hands nothing to the extension and does not start it. -/
theorem Standing.headway_after (h : p.Standing extension properties) {part : Part} {deed : Deed}
    {plan : List Operation} {said : List Message} {s : Scene} (hown : part.isOwn = true)
    (hstep : p.step part = some (p.after deed plan said s)) (hdeed : p.scene.undergo deed = some s)
    (hopen : s.app.router.closed = false) (hnone : deed.handed p.scene .engine = [])
    (hrunner : s.runner.beginning = p.scene.runner.beginning) :
    p.Headway (p.after deed plan said s) := by
  obtain ⟨owners, hlasting⟩ := h.lasting
  obtain ⟨more, hqueue, htold, hinit, hstart⟩ := hlasting.cues_undergo hdeed hopen
  have hmore : more = [] := by
    cases more with
    | nil => rfl
    | cons cue more =>
      rw [hnone] at htold
      cases cue with
      | init json => exact absurd List.mem_cons_self (hinit json)
      | start =>
        rw [List.countP_cons_of_pos rfl, hrunner] at hstart
        omega
      | message msg => cases htold
  refine ⟨⟨[part], fun _ hpart => List.mem_singleton.mp hpart ▸ hown, ?_⟩, ?_, ?_⟩
  · rw [Parley.run, hstep]
    rfl
  · change p.told ++ (deed.handed p.scene .engine).map _ = p.told
    rw [hnone, List.map_nil, List.append_nil]
  · rw [p.line_after hqueue, hmore, List.append_nil]

/-- The extension can always go on with its plan. -/
theorem Standing.exists_reply (h : p.Standing extension properties) {op : Operation}
    {plan : List Operation} (hplan : p.plan = op :: plan) :
    ∃ p', p.Headway p' ∧ p'.plan = plan ∧ p'.cues = p.cues := by
  obtain ⟨hrefrains, hnone⟩ : Refrains _ op.perform ∧
      Deed.handed p.scene .engine (.act (.operate op)) = [] := by
    cases h.planned op (hplan ▸ List.mem_cons_self) with
    | answer =>
      have hcomplete (id : RequestId) (result : CmdResult) := refrains_onTable (·.complete id result)
      exact ⟨composes_refrains.returnResult hcomplete _, rfl⟩
    | say hmsg => exact ⟨refrains_saying _ _, share_handed?_saying h.routes hmsg _⟩
  have hstep : p.step .reply = p.follow (.act (.operate op)) plan
      (Deed.handed p.scene .tester (.act (.operate op))) := by
    rw [Parley.step, hplan]
  have hstays : (op.perform.run p.scene.app).2.router.closed = false ∧
      (op.perform.run p.scene.app).2.greeting = p.scene.app.greeting :=
    ⟨(hrefrains.closed _).trans h.opened, hrefrains.greeting _⟩
  exact ⟨_, h.headway_after rfl (hstep.trans (if_pos hstays)) rfl hstays.1 hnone rfl,
    List.append_nil plan, List.append_nil p.cues⟩

/-- A worker whose plan was carried out can end its job. -/
theorem Standing.exists_finish (h : p.Standing extension properties) (hplan : p.plan = []) :
    ∃ p', p.Headway p' ∧ p'.Rests ∧ p'.cues = p.cues ∧
      (p'.scene.app.worker .engine).queue = (p.scene.app.worker .engine).queue := by
  cases hbusy : p.scene.busy .engine with
  | none => exact ⟨p, .refl p, ⟨hplan, hbusy⟩, rfl, rfl⟩
  | some business =>
    set s : Scene := { p.scene with
      app := (p.scene.app.ending business).counted .engine (.ok ())
      busy := Function.update p.scene.busy .engine none }
    have hdeed : p.scene.undergo (.act (.finish .engine (.ok ()))) = some s := by
      change p.scene.finish .engine (.ok ()) = some s
      rw [Scene.finish, hbusy]
      rfl
    have hunshaken := Scene.unshaken_ended p.scene.app business .engine (.ok ())
    have hstays : s.app.router.closed = false ∧ s.app.greeting = p.scene.app.greeting :=
      ⟨(congrArg Router.closed hunshaken.router).trans h.opened,
        greeting_counted_ending _ business .engine _⟩
    have hallows : p.allows (.act (.finish .engine (.ok ()))) = true := by
      rw [allows, hplan]
      rfl
    have hheadway := h.headway_after rfl (step_deed hallows hdeed hstays) hdeed hstays.1 rfl rfl
    refine ⟨_, hheadway, ⟨?_, ?_⟩, List.append_nil p.cues, hunshaken.queue .engine⟩
    · exact (List.append_nil p.plan).trans hplan
    · rw [scene_after]
      change Function.update p.scene.busy .engine none .engine = none
      rw [Function.update_self]

/-- The extension can carry out its plan, and its worker can end the job. -/
theorem Standing.exists_rests (h : p.Standing extension properties) :
    ∃ p', p.Headway p' ∧ p'.Rests ∧ p'.cues = p.cues := by
  induction hplan : p.plan generalizing p with
  | nil =>
    obtain ⟨p', hheadway, hrests, hcues, -⟩ := h.exists_finish hplan
    exact ⟨p', hheadway, hrests, hcues⟩
  | cons op plan ih =>
    obtain ⟨next, hnext, hleft, hcues⟩ := h.exists_reply hplan
    obtain ⟨p', hheadway, hrests, hcues'⟩ := ih (hnext.standing h) hleft
    exact ⟨p', hnext.trans hheadway, hrests, hcues'.trans hcues⟩

/-- An idle worker can take the task that is queued first. -/
theorem Standing.exists_take (h : p.Standing extension properties) (hrests : p.Rests)
    {task : Task Job} {tasks : List (Task Job)}
    (hqueue : (p.scene.app.worker .engine).queue = task :: tasks) :
    ∃ p', p.Headway p' ∧ p'.cues = p.cues ++ (Cue.ofTask? task).toList ∧
      (p'.scene.app.worker .engine).queue = tasks ∧ (Cue.ofTask? task = none → p'.plan = []) := by
  set began : Scene := { p.scene with
    app := p.scene.app.popped .engine, runner := p.scene.runner.countDown .engine }
  set s := Scene.start began .engine task
  have hdeed : p.scene.undergo (.act (.take .engine)) = some s := by
    change p.scene.take .engine = some s
    rw [Scene.take, hrests.idle, hqueue]
  obtain ⟨hunshaken, hrunner⟩ := Scene.unshaken_start began .engine task
  have hstays : s.app.router.closed = false ∧ s.app.greeting = p.scene.app.greeting :=
    ⟨(congrArg Router.closed hunshaken.router).trans h.opened,
      Scene.greeting_start began .engine task⟩
  have hstep := step_deed (p := p) rfl hdeed hstays
  have hcues : Deed.cues p.scene (.act (.take .engine)) = (Cue.ofTask? task).toList := by
    rw [Deed.cues, Deed.taken, if_pos rfl, hqueue]
    cases hcue : Cue.ofTask? task with
    | none => exact List.filterMap_cons_none hcue
    | some cue => exact List.filterMap_cons_some hcue
  have hleft : (s.app.worker .engine).queue = tasks := by
    rw [hunshaken.queue, queue_popped, if_pos rfl, hqueue]
    rfl
  refine ⟨_, h.headway_after rfl hstep hdeed hstays.1 rfl ?_, ?_, ?_, fun hnone => ?_⟩
  · rw [hrunner, Runner.beginning_countDown]
  · rw [← hcues]
    rfl
  · rw [scene_after]
    exact hleft
  · change p.plan ++ _ = []
    rw [hrests.plan, hcues, hnone]
    rfl

/-- A worker can come to the next cue, if there is one left. -/
theorem Standing.exists_cue (h : p.Standing extension properties) (hrests : p.Rests) :
    ∃ p', p.Headway p' ∧ p'.Rests ∧ p'.cues = p.cues ∧
      ((p'.scene.app.worker .engine).queue = [] ∨ ∃ task tasks cue,
        (p'.scene.app.worker .engine).queue = task :: tasks ∧ Cue.ofTask? task = some cue) := by
  induction hqueue : (p.scene.app.worker .engine).queue generalizing p with
  | nil => exact ⟨p, .refl p, hrests, rfl, Or.inl hqueue⟩
  | cons task tasks ih =>
    cases hcue : Cue.ofTask? task with
    | some cue => exact ⟨p, .refl p, hrests, rfl, Or.inr ⟨task, tasks, cue, hqueue, hcue⟩⟩
    | none =>
      obtain ⟨begun, hbegun, hcues, hleft, hplan⟩ := h.exists_take hrests hqueue
      have hstanding := hbegun.standing h
      obtain ⟨ended, hended, hrests', hcues', hleft'⟩ := hstanding.exists_finish (hplan hcue)
      obtain ⟨p', hheadway, hdone, hsame, hnext⟩ :=
        ih (hended.standing hstanding) hrests' (hleft'.trans hleft)
      refine ⟨p', (hbegun.trans hended).trans hheadway, hdone, ?_, hnext⟩
      rw [hsame, hcues', hcues, hcue]
      exact List.append_nil p.cues

/-- An idle worker can work off its queue. The number of cues that are left decreases from one cue to
the next, though the queue may grow meanwhile by outcomes for handlers of the extension. -/
theorem Standing.exists_spent (h : p.Standing extension properties) (hrests : p.Rests)
    {left : List Cue} (hleft : p.line = p.cues ++ left) :
    ∃ p', p.Headway p' ∧ p'.Rests ∧ (p'.scene.app.worker .engine).queue = [] := by
  induction left generalizing p with
  | nil =>
    obtain ⟨p', hheadway, hdone, hcues, hempty | ⟨task, tasks, cue, hqueue, hcue⟩⟩ :=
      h.exists_cue hrests
    · exact ⟨p', hheadway, hdone, hempty⟩
    · have hline := hheadway.line
      rw [hleft, line, hqueue, hcues, List.filterMap_cons_some hcue] at hline
      cases List.append_cancel_left hline
  | cons first left ih =>
    obtain ⟨next, hnext, hdone, hcues, hempty | ⟨task, tasks, cue, hqueue, hcue⟩⟩ :=
      h.exists_cue hrests
    · exact ⟨next, hnext, hdone, hempty⟩
    · have hline := hnext.line
      rw [hleft, line, hqueue, hcues, List.filterMap_cons_some hcue] at hline
      obtain ⟨rfl, -⟩ := List.cons.inj (List.append_cancel_left hline)
      have hstanding := hnext.standing h
      obtain ⟨begun, hbegun, hcues', -, -⟩ := hstanding.exists_take hdone hqueue
      have hstanding' := hbegun.standing hstanding
      obtain ⟨ended, hended, hrests', hcues''⟩ := hstanding'.exists_rests
      have hway := (hnext.trans hbegun).trans hended
      obtain ⟨p', hheadway, hspent⟩ := ih (hended.standing hstanding') hrests' <| by
        rw [hway.line, hleft, hcues'', hcues', hcues, hcue, List.append_assoc]
        rfl
      exact ⟨p', hway.trans hheadway, hspent⟩

/-- The extension can do all that it was called for, and is called for. -/
theorem Standing.exists_done (h : p.Standing extension properties) :
    ∃ p', p.Headway p' ∧ p'.Rests ∧ (p'.scene.app.worker .engine).queue = [] ∧
      p'.cues = p.line := by
  obtain ⟨next, hnext, hrests, -⟩ := h.exists_rests
  obtain ⟨p', hheadway, hdone, hempty⟩ := (hnext.standing h).exists_spent hrests rfl
  have hway := hnext.trans hheadway
  refine ⟨p', hway, hdone, hempty, ?_⟩
  rw [← hway.line, line, hempty]
  exact (List.append_nil p'.cues).symm

end Headway

end Parley

end Switchboard.App
