import Switchboard.App.Env
import Switchboard.Proofs.App.Accounts
import Switchboard.Proofs.Programs
/-!
# Sends keep the accounts of an application

Whatever the two sides send or return, whenever they stop the run, the accounts of the application
stay sound. Nothing arrives at a continuation meanwhile: deliveries are queued on the workers.
-/
namespace Switchboard.App

/-- Whatever is in hand, a program keeps the accounts sound, and while it runs nothing happens at
any continuation. -/
def Keeps {α : Type} (p : Program α) : Prop :=
  ∀ (a : App) (hand : Nat → Nat), a.Sound hand → (p.run a).2.Sound hand ∧ Calm a (p.run a).2

section Composition

variable {α β : Type}

theorem keeps_pure (x : α) : Keeps (pure x) := fun a _ ha => ⟨ha, .refl a⟩

theorem Keeps.bind {p : Program α} {f : α → Program β} (hp : Keeps p) (hf : ∀ x, Keeps (f x)) :
    Keeps (p >>= f) := by
  intro a hand ha
  obtain ⟨hsound, hcalm⟩ := hp a hand ha
  obtain ⟨hsound', hcalm'⟩ := hf (p.run a).1 (p.run a).2 hand hsound
  exact ⟨hsound', hcalm.trans hcalm'⟩

theorem composes_keeps : Composes fun α (p : Program α) => Keeps p := ⟨keeps_pure, Keeps.bind⟩

/-- A program that changes nothing that counts. -/
theorem keeps_of_same {p : Program α} (h : ∀ a, Same a (p.run a).2) : Keeps p :=
  fun a _ ha => ⟨ha.same (h a), (h a).calm⟩

theorem keeps_get : Keeps (get : Program App) :=
  keeps_of_same fun _ => rfl

theorem keeps_modifyGet {f : App → α × App} (hf : ∀ a, Same a (f a).2) :
    Keeps (modifyGet f : Program α) := keeps_of_same hf

theorem keeps_modify {f : App → App} (hf : ∀ a, Same a (f a)) :
    Keeps (modify f : Program PUnit) := keeps_of_same hf

theorem keeps_count (f : Counters → Counters) : Keeps (Program.count f) :=
  keeps_modify fun _ => rfl

theorem keeps_lifecycle_step (f : Lifecycle → α × Lifecycle) : Keeps (Program.lifecycle.step f) :=
  keeps_modifyGet fun _ => rfl

theorem keeps_router_get : Keeps Program.router.get :=
  keeps_modifyGet fun _ => rfl

theorem keeps_pool_modify (f : PermitPool → PermitPool) : Keeps (Program.pool.modify f) :=
  keeps_modifyGet fun _ => rfl

end Composition

section Workers

/-- The application after a worker has taken a task. -/
def enqueued (a : App) (side : Side) (task : Task Job) : App :=
  a.setWorker side { a.worker side with queue := (a.worker side).queue ++ [task] }

/-- A worker that was not shut down takes a task, and with it the ending that it may be. -/
theorem Sound.enqueued {a : App} {hand hand' : Nat → Nat} (ha : a.Sound hand') {side : Side}
    {task : Task Job} (haccepting : (a.worker side).accepting = true) (hhonest : HonestTask task)
    (hhand : ∀ i, hand i + endingsOf task i = hand' i) :
    (a.enqueued side task).Sound hand ∧ Calm a (a.enqueued side task) := by
  constructor
  · apply ha.setWorker side
    · intro other hother
      rw [List.mem_append, List.mem_singleton] at hother
      rcases hother with hother | rfl
      · exact ha.honest side other hother
      · exact hhonest
    · intro i
      rw [queuedIn_concat, ← hhand]
      omega
    · intro hshut
      exact absurd haccepting (Bool.eq_false_iff.mp hshut)
  · apply calm_setWorker
    · rfl
    · intro hshut
      exact absurd haccepting (Bool.eq_false_iff.mp hshut)

/-- A task that is no ending may be queued at any time. -/
theorem keeps_accept (side : Side) {task : Task Job} (hnone : endingsOf task = 0)
    (hhonest : HonestTask task) : Keeps ((Program.worker side).step (·.accept task)) := by
  intro a hand ha
  change (a.setWorker side ((a.worker side).accept task).2).Sound hand ∧
    Calm a (a.setWorker side ((a.worker side).accept task).2)
  cases haccepting : (a.worker side).accepting with
  | false =>
    rw [Worker.accept_of_not_accepting haccepting]
    have hsame : Same a (a.setWorker side (a.worker side)) := by
      cases side
      · rfl
      · rfl
    exact ⟨ha.same hsame, hsame.calm⟩
  | true =>
    rw [Worker.accept_of_accepting haccepting]
    apply ha.enqueued haccepting hhonest
    intro i
    rw [hnone]
    rfl

theorem keeps_execute (side : Side) {job : Job} (hnone : endingsOf (.job job) = 0)
    (hhonest : HonestTask (.job job)) : Keeps ((Program.worker side).step (·.execute job)) :=
  keeps_accept side hnone hhonest

/-- Waiting for a worker from outside. -/
theorem keeps_flush (side : Side) : Keeps ((Program.worker side).step (·.flush false)) :=
  keeps_accept side rfl trivial

theorem keeps_countTask (side : Side) (ended : Except Panic Unit) :
    Keeps ((Program.worker side).modify (·.count ended)) := by
  intro a hand ha
  change (a.setWorker side ((a.worker side).count ended)).Sound hand ∧
    Calm a (a.setWorker side ((a.worker side).count ended))
  constructor
  · refine ha.setWorker side ?_ (fun i => ?_) fun hshut => ?_
    · rw [Worker.queue_count]
      exact ha.honest side
    · rw [Worker.queue_count]
    · rw [Worker.accepting_count] at hshut
      exact ha.shut side hshut
  · exact calm_setWorker (Worker.accepting_count _ _) fun _ => Worker.queue_count _ _

end Workers

section Deliveries

/-- No worker was shut down. -/
def Open (a : App) : Prop := ∀ side, (a.worker side).accepting = true

/-- The task that a delivery becomes. -/
def taskOf (d : Delivery Nat Side) : Task Job := .job (.resume d.continuation d.outcome d.terminal)

theorem endingsOf_taskOf (d : Delivery Nat Side) (i : Nat) :
    endingsOf (taskOf d) i = Delivery.endings [d] i := by
  simp [taskOf, endingsOf, Delivery.endings, Delivery.endsFor, List.countP_cons]

theorem run_submit {a : App} (ha : a.Open) (d : Delivery Nat Side) :
    (Program.submit d).run a = ((), a.enqueued d.executor (taskOf d)) := by
  have hrun : ((Program.worker d.executor).step (·.execute (.resume d.continuation d.outcome
      d.terminal))).run a = (.ok (), a.enqueued d.executor (taskOf d)) := by
    have haccept := Worker.accept_of_accepting (ha d.executor) (taskOf d)
    change (((a.worker d.executor).accept (taskOf d)).1,
      a.setWorker d.executor ((a.worker d.executor).accept (taskOf d)).2) = _
    rw [haccept]
    rfl
  rw [Program.submit, run_bind, hrun]
  rfl

/-- A delivery that was in hand is queued. -/
theorem Sound.submit {a : App} {hand : Nat → Nat} {d : Delivery Nat Side}
    (ha : a.Sound fun i => hand i + Delivery.endings [d] i) (hopen : a.Open)
    (hterminal : d.terminal = d.outcome.isTerminal) :
    ((Program.submit d).run a).2.Sound hand ∧ Calm a ((Program.submit d).run a).2 ∧
      ((Program.submit d).run a).2.Open := by
  rw [run_submit hopen]
  have hhand (i : Nat) : hand i + endingsOf (taskOf d) i = hand i + Delivery.endings [d] i :=
    congrArg (hand i + ·) (endingsOf_taskOf d i)
  have hhonest : HonestTask (taskOf d) := hterminal
  obtain ⟨hsound, hcalm⟩ := ha.enqueued (hopen d.executor) hhonest hhand
  refine ⟨hsound, hcalm, ?_⟩
  intro side
  rw [hcalm.persists.accepting]
  exact hopen side

theorem Sound.submitAll {a : App} {hand : Nat → Nat} {deliveries : List (Delivery Nat Side)}
    (ha : a.Sound fun i => hand i + Delivery.endings deliveries i) (hopen : a.Open)
    (hterminal : ∀ d ∈ deliveries, d.terminal = d.outcome.isTerminal) :
    ((deliveries.forM Program.submit).run a).2.Sound hand ∧
      Calm a ((deliveries.forM Program.submit).run a).2 := by
  induction deliveries generalizing a with
  | nil => exact ⟨ha, .refl a⟩
  | cons d deliveries ih =>
    have hsplit : (fun i => hand i + Delivery.endings (d :: deliveries) i) =
        fun i => (hand i + Delivery.endings deliveries i) + Delivery.endings [d] i := by
      ext i
      simp [Delivery.endings, List.countP_cons, Nat.add_assoc]
    rw [hsplit] at ha
    obtain ⟨hsound, hcalm, hopen'⟩ := ha.submit hopen (hterminal d List.mem_cons_self)
    obtain ⟨hsound', hcalm'⟩ := ih hsound hopen' fun other hother =>
      hterminal other (List.mem_cons_of_mem d hother)
    exact ⟨hsound', hcalm.trans hcalm'⟩

/-- The application after an operation of the table, before its deliveries are queued. -/
def handed {α : Type} (a : App)
    (op : PendingTable Nat Side → α × List (Delivery Nat Side) × PendingTable Nat Side) : App :=
  { a with router := { a.router with table := (op a.router.table).2.2 } }

/-- What the table hands out is queued: as long as there is something to hand out, no worker was
shut down. -/
theorem Sound.onTable {α : Type} {a : App} {hand : Nat → Nat} (ha : a.Sound hand)
    (op : PendingTable Nat Side → α × List (Delivery Nat Side) × PendingTable Nat Side)
    (hout : a.router.table.HandsOut (op a.router.table).2.1 (op a.router.table).2.2) :
    ((Program.fabric.onTable op).run a).2.Sound hand ∧ Calm a (a.handed op) ∧
      Calm (a.handed op) ((Program.fabric.onTable op).run a).2 := by
  change (((op a.router.table).2.1.forM Program.submit).run (a.handed op)).2.Sound hand ∧ _ ∧
    Calm (a.handed op) (((op a.router.table).2.1.forM Program.submit).run (a.handed op)).2
  have hpersists := TablePersists.of_handsOut hout
  have hcalm : Calm a (a.handed op) := calm_setRouter hpersists (fun hc => hc) fun hr => hr
  have hhanded : (a.handed op).Sound
      fun i => hand i + Delivery.endings (op a.router.table).2.1 i := by
    refine ha.setRouter hout.sharded hout.taken (fun i => ?_) hpersists
    rw [← hout.waiting i]
    change hand i + _ + (op a.router.table).2.2.waitingFor i = _
    omega
  by_cases hopen : a.Open
  · obtain ⟨hsound, hcalm'⟩ := hhanded.submitAll hopen hout.terminal
    exact ⟨hsound, hcalm, hcalm'⟩
  · obtain ⟨side, hside⟩ := not_forall.mp hopen
    have hempty := (ha.shut side (Bool.not_eq_true _ ▸ hside)).2
    have hnothing := (hout.empty hempty).1
    rw [hnothing] at hhanded ⊢
    exact ⟨hhanded, hcalm, .refl _⟩

theorem keeps_onTable {α : Type}
    {op : PendingTable Nat Side → α × List (Delivery Nat Side) × PendingTable Nat Side}
    (hop : ∀ t : PendingTable Nat Side, t.Sharded → t.HandsOut (op t).2.1 (op t).2.2) :
    Keeps (Program.fabric.onTable op) := by
  intro a hand ha
  obtain ⟨hsound, hcalm, hcalm'⟩ := ha.onTable op (hop a.router.table ha.sharded)
  exact ⟨hsound, hcalm.trans hcalm'⟩

theorem keeps_forward (side : Side) (msg : Message) : Keeps (Program.forward side msg) := by
  unfold Program.forward
  split
  · exact keeps_pure _
  · exact keeps_execute side rfl trivial

theorem fits_fabric : Composes.Fits (fun α (p : Program α) => Keeps p) Program.fabric where
  get := keeps_router_get
  complete id result := keeps_onTable fun _ ht => ht.handsOut_complete id result
  fail id fault := keeps_onTable fun _ ht => ht.handsOut_fail id fault
  forward := keeps_forward

theorem keeps_cancelAll (reason : String) : Keeps (Program.fabric.cancelAll reason) :=
  keeps_onTable fun t _ => t.handsOut_cancelAll reason

end Deliveries

section Commands

/-- What comes of a command that is sent for a continuation: if the send succeeds, the table has
taken it. -/
structure Sends (a : App) (hand : Nat → Nat) (i : Nat) (out : Except Fault RequestId × App) :
    Prop where
  sound : out.2.Sound hand
  calm : Calm a out.2
  taken : ∀ id, out.1 = .ok id → i ∈ out.2.router.table.taken

theorem Sends.refused {a : App} {hand : Nat → Nat} (ha : a.Sound hand) (i : Nat) (e : Fault) :
    Sends a hand i (.error e, a) := ⟨ha, .refl a, nofun⟩

/-- What is done for a continuation that was taken. -/
theorem Sends.of_taken {a b : App} {hand : Nat → Nat} {i : Nat} (hb : b.Sound hand)
    (hcalm : Calm a b) (htaken : i ∈ b.router.table.taken)
    {p : Program (Except Fault RequestId)} (hp : Keeps p) : Sends a hand i (p.run b) := by
  obtain ⟨hsound, hcalm'⟩ := hp b hand hb
  exact ⟨hsound, hcalm.trans hcalm', fun _ _ => hcalm'.persists.table.taken i htaken⟩

/-- Something is done before and after. -/
theorem Sends.around {a b : App} {hand : Nat → Nat} {i : Nat} (hcalm : Calm a b)
    {p : Program (Except Fault RequestId)} (hp : Sends b hand i (p.run b))
    {after : Except Fault RequestId → Program (Except Fault RequestId)}
    (hafter : ∀ answer, Keeps (after answer))
    (hsame : ∀ e c, ((after (.error e)).run c).1 = .error e) :
    Sends a hand i ((p >>= after).run b) := by
  obtain ⟨hsound, hcalm', htaken⟩ := hp
  rw [run_bind]
  obtain ⟨hsound'', hcalm''⟩ := hafter (p.run b).1 _ hand hsound
  refine ⟨hsound'', (hcalm.trans hcalm').trans hcalm'', fun id hid => ?_⟩
  cases hanswer : (p.run b).1 with
  | error e =>
    rw [hanswer, hsame] at hid
    cases hid
  | ok id' =>
    have hkept := hcalm''.persists.table.taken i (htaken id' hanswer)
    rwa [hanswer] at hkept

/-- A command for a fresh continuation goes through an outlet. -/
theorem Sound.sendThrough {a : App} {hand : Nat → Nat} {i : Nat} (ha : a.Sound hand)
    (hfresh : a.Fresh i) (p : Outlet Side) (cmd : Cmd) (streaming : Bool) :
    Sends a hand i ((p.sendCmd Program.fabric cmd i streaming).run a) := by
  unfold Outlet.sendCmd
  cases cmd.validate with
  | error e => exact .refused ha i _
  | ok _ =>
    have hget : Program.fabric.router.get.run a = (a.router, a) := rfl
    simp only [run_bind, hget]
    cases a.router.ensureOpen with
    | error e => exact .refused ha i _
    | ok _ =>
      let request : PendingRequest Nat Side :=
        { continuation := i, executor := p.executor, streaming }
      obtain ⟨hsound, hcalm, htaken⟩ := ha.accept request hfresh
      have haccept : (Program.fabric.router.step (Router.accept request)).run a =
          ((a.router.accept request).1, { a with router := (a.router.accept request).2 }) := rfl
      simp only [run_bind]
      rw [haccept]
      cases hanswer : (a.router.accept request).1 with
      | error e => exact ⟨hsound, hcalm, nofun⟩
      | ok id =>
        refine .of_taken hsound hcalm (htaken id hanswer) ?_
        apply (composes_keeps.forwardTo fits_fabric.toReaches _ _).bind
        intro forwarded
        cases forwarded with
        | error e => exact (fits_fabric.fail id e).bind fun _ => keeps_pure _
        | ok _ => exact keeps_pure _

/-- The tester sends inside the pool and counts what it has sent. -/
theorem Sound.sendFrom {a : App} {hand : Nat → Nat} {i : Nat} (ha : a.Sound hand)
    (hfresh : a.Fresh i) (side : Side) (cmd : Cmd) (streaming : Bool) :
    Sends a hand i ((Program.sendCmdFrom side i cmd streaming).run a) := by
  cases side with
  | engine => exact ha.sendThrough hfresh (a.outlet .engine) cmd streaming
  | tester =>
    let entered : App := { a with pool := a.pool.take }
    have hentered : Same a entered := rfl
    have hsend := (ha.same hentered).sendThrough (a := entered) ⟨hfresh.inRange, hfresh.free⟩
      (a.outlet .tester) cmd streaming
    have hleft (answer : Except Fault RequestId) :
        Keeps (do Program.pool.modify PermitPool.give; return answer) :=
      (keeps_pool_modify _).bind fun _ => keeps_pure _
    have hduring : Sends a hand i ((PermitPool.during Program.pool
        ((a.outlet .tester).sendCmd Program.fabric cmd i streaming)).run a) :=
      hsend.around hentered.calm hleft fun _ _ => rfl
    have hget : (get : Program App).run a = (a, a) := rfl
    rw [Program.sendCmdFrom, run_bind, hget]
    refine hduring.around (.refl a) (fun answer => ?_) fun e c => ?_
    · cases answer with
      | error e => exact keeps_pure _
      | ok id => exact (keeps_count _).bind fun _ => keeps_pure _
    · rfl

/-- Commands whose send succeeded are remembered. -/
theorem Sound.remember {a : App} {hand : Nat → Nat} {i : Nat} (ha : a.Sound hand)
    (htaken : i ∈ a.router.table.taken) : { a with sent := a.sent ++ [i] }.Sound hand where
  sharded := ha.sharded
  orderly := ha.orderly
  honest := ha.honest
  endings := ha.endings
  inRange := ha.inRange
  once := ha.once
  sent k hk := by
    rw [List.mem_append, List.mem_singleton] at hk
    rcases hk with hk | rfl
    · exact ha.sent k hk
    · exact htaken
  shut := ha.shut

/-- A side sends a command for a new continuation. -/
theorem Sound.sendCmd {a : App} {hand : Nat → Nat} (ha : a.Sound hand) (handler : Handler)
    (cmd : Cmd) (streaming : Bool) :
    Sends a hand a.cells.size ((Program.sendCmd handler cmd streaming).run a) := by
  have hsend := (ha.push handler).sendFrom (ha.fresh_push handler) handler.side cmd streaming
  have hcalm := (a.calm_push handler).trans hsend.calm
  have hrun : (Program.newCell handler).run a =
    (a.cells.size, { a with cells := a.cells.push (.ofHandler handler) }) := rfl
  rw [Program.sendCmd, run_bind, hrun, run_bind]
  cases hanswer : ((Program.sendCmdFrom handler.side a.cells.size cmd streaming).run
      { a with cells := a.cells.push (.ofHandler handler) }).1 with
  | error e => exact ⟨hsend.sound, hcalm, nofun⟩
  | ok id =>
    have htaken := hsend.taken id hanswer
    have hkept := hcalm.persists
    refine ⟨hsend.sound.remember htaken, ⟨⟨hkept.table, hkept.closed, hkept.routes,
      hkept.accepting, hkept.queue, hkept.cells, ?_, fun hclosed => ?_, hkept.dropped⟩,
      hcalm.history⟩, fun _ _ => htaken⟩
    · exact hkept.sent.trans (List.prefix_append _ _)
    · -- a closed table has not taken the new continuation
      rw [hkept.table.final hclosed] at htaken
      exact absurd (ha.inRange _ htaken) (Nat.lt_irrefl _)

theorem keeps_sendCmd (handler : Handler) (cmd : Cmd) (streaming : Bool) :
    Keeps (Program.sendCmd handler cmd streaming) := by
  intro a hand ha
  have hsend := ha.sendCmd handler cmd streaming
  exact ⟨hsend.sound, hsend.calm⟩

/-- A closed router refuses commands and stays as it is. -/
theorem run_sendCmd_of_closed {a : App} (h : a.router.closed = true) (p : Outlet Side) (cmd : Cmd)
    (i : Nat) (streaming : Bool) :
    ∃ fault, (p.sendCmd Program.fabric cmd i streaming).run a = (.error fault, a) :=
  ⟨_, Fabric.run_sendCmd_of_closed _ (fun _ => rfl) h p cmd i streaming⟩

theorem run_sendCmdFrom_of_closed {a : App} (h : a.router.closed = true) (side : Side) (cmd : Cmd)
    (i : Nat) (streaming : Bool) :
    ∃ fault, ((Program.sendCmdFrom side i cmd streaming).run a).1 = .error fault := by
  have hget : (get : Program App).run a = (a, a) := rfl
  rw [Program.sendCmdFrom, run_bind, hget]
  cases side with
  | engine =>
    obtain ⟨fault, hrun⟩ := run_sendCmd_of_closed h (a.outlet .engine) cmd i streaming
    exact ⟨fault, congrArg Prod.fst hrun⟩
  | tester =>
    let entered : App := { a with pool := a.pool.take }
    obtain ⟨fault, hrun⟩ :=
      run_sendCmd_of_closed (a := entered) h (a.outlet .tester) cmd i streaming
    have hduring : ((PermitPool.during Program.pool
        ((a.outlet .tester).sendCmd Program.fabric cmd i streaming)).run a).1 = .error fault :=
      congrArg Prod.fst hrun
    refine ⟨fault, ?_⟩
    dsimp only
    rw [run_bind, hduring]
    rfl

/-- When the router is closed, no side can send a command. -/
theorem run_sendCmd_eq_error {a : App} (h : a.router.closed = true) (handler : Handler) (cmd : Cmd)
    (streaming : Bool) :
    ∃ fault, ((Program.sendCmd handler cmd streaming).run a).1 = .error fault := by
  have hnew : (Program.newCell handler).run a =
      (a.cells.size, { a with cells := a.cells.push (.ofHandler handler) }) := rfl
  obtain ⟨fault, hrun⟩ := run_sendCmdFrom_of_closed
    (a := { a with cells := a.cells.push (.ofHandler handler) }) h handler.side cmd a.cells.size
    streaming
  refine ⟨fault, ?_⟩
  rw [Program.sendCmd, run_bind, hnew, run_bind, hrun]
  rfl

/-- A closed router refuses messages. -/
theorem run_send_of_closed {a : App} (h : a.router.closed = true) (p : Outlet Side)
    (msg : Message) : ∃ fault, (p.send Program.fabric msg).run a = (.error fault, a) :=
  ⟨_, Fabric.run_send_of_closed _ (fun _ => rfl) h p msg⟩

end Commands

section Operations

/-- The router closes, whatever becomes of its endpoints. -/
theorem keeps_closing {f : Router Nat Side Side → Router Nat Side Side}
    (htable : ∀ r, (f r).table = r.table) (hclosed : ∀ r, (f r).closed = true)
    (hroutes : ∀ r, r.routes = [] → (f r).routes = []) : Keeps (Program.router.modify f) := by
  intro a hand ha
  change ({ a with router := f a.router } : App).Sound hand ∧ Calm a { a with router := f a.router }
  have hpersists : TablePersists a.router.table (f a.router).table := by
    rw [htable]
    exact .refl _
  constructor
  · refine ha.setRouter ?_ ?_ (fun i => ?_) hpersists
    · rw [htable]
      exact ha.sharded
    · rw [htable]
    · rw [htable]
  · exact calm_setRouter hpersists (fun _ => hclosed a.router) (hroutes a.router)

theorem keeps_tearDown (reason : String) : Keeps (Program.tearDown reason) := by
  have hclose := keeps_closing (f := .close) (fun _ => rfl) (fun _ => rfl) fun _ hr => hr
  exact hclose.bind fun _ => keeps_cancelAll reason

theorem keeps_abort (reason : String) : Keeps (Program.abort reason) := by
  have hclear := keeps_closing (f := .clearRoutes) (fun _ => rfl) (fun _ => rfl) fun _ _ => rfl
  exact hclear.bind fun _ => keeps_cancelAll reason

theorem keeps_beginStop {ε : Type} {teardown : Program (Except ε Unit)} (h : Keeps teardown) :
    Keeps (Lifecycle.beginStop Program.lifecycle teardown) :=
  composes_keeps.beginStop keeps_lifecycle_step h

end Operations

end Switchboard.App
