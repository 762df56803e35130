import Switchboard.Proofs.Router.Correspondence
import Switchboard.Proofs.Run.Arrivals
/-!
# What deeds deal out

While the router of an application stays open, whatever happens makes at most one request wait, under
the next id and for a new continuation; and of the requests that wait it ends at most the one that a
result names. What is queued is a result for that request, a fault for the new continuation, or
brings no outcome.
-/
namespace Switchboard.App

/-- Whether a task brings no outcome. The extension is started only by whoever launches it, and
initialised by nobody. -/
def isPlain (launching : Bool) : Task Job → Bool
  | .job (.arrival _) | .job (.phase _) | .job (.completion _) | .mark => true
  | .job .startExtension => launching
  | .job (.resume ..) | .job (.initExtension _) => false

/-- A program that puts tasks of a kind behind whatever is queued, and leaves the router as it is,
and makes no continuations. -/
structure Adds (P : Task Job → Prop) (α : Type) (p : Program α) : Prop where
  router : ∀ a, (p.run a).2.router = a.router
  size : ∀ a, (p.run a).2.cells.size = a.cells.size
  queue : ∀ a side, ∃ more, ((p.run a).2.worker side).queue = (a.worker side).queue ++ more ∧
    ∀ task ∈ more, P task

/-- What may be queued by whoever returns a result or sends a command for a continuation. -/
inductive Dealt (launching : Bool) (returned : Option CmdResult) (cell : Nat) (a : App) :
    Task Job → Prop where
  | plain {task : Task Job} (h : isPlain launching task = true) : Dealt launching returned cell a task
  | fault (outcome : Outcome) (terminal : Bool) :
    Dealt launching returned cell a (.job (.resume cell outcome terminal))
  | result {result : CmdResult} {id : RequestId} {request : PendingRequest Nat Side}
    (hreturned : returned = some result) (hid : result.requestId = some id)
    (hwaits : (id, request) ∈ a.router.table.entries) :
    Dealt launching returned cell a
      (.job (.resume request.continuation (.ok result) result.isFinal))

/-- What comes of an application when somebody returns a result or sends a command for a
continuation, or does neither. -/
structure Deals (launching : Bool) (returned : Option CmdResult) (cell : Nat) (a a' : App) :
    Prop where
  routes : a'.router.routes = a.router.routes
  closed : a'.router.table.closed = a.router.table.closed
  nextId : a'.router.table.nextId = a.router.table.nextId ∨
    a'.router.table.nextId = a.router.table.nextId + 1 ∧ cell < a'.cells.size
  entries : ∀ e ∈ a'.router.table.entries, e ∈ a.router.table.entries ∨
    e.1 = ⟨a.router.table.nextId⟩ ∧ e.2.continuation = cell ∧
      a'.router.table.nextId = a.router.table.nextId + 1
  ended : ∀ result id, returned = some result → result.requestId = some id →
    result.isFinal = true → ∀ e ∈ a'.router.table.entries, e.1 ≠ id
  tasks : ∀ side, ∃ more, (a'.worker side).queue = (a.worker side).queue ++ more ∧
    ∀ task ∈ more, Dealt launching returned cell a task

section Adds

variable {P : Task Job → Prop} {α : Type} {launching : Bool}

theorem composes_adds : Composes (Adds P) where
  pure _ := ⟨fun _ => rfl, fun _ => rfl, fun _ _ => ⟨[], (List.append_nil _).symm, nofun⟩⟩
  bind {_ _ p f} hp hf := by
    refine ⟨fun a => ((hf _).router _).trans (hp.router a),
      fun a => ((hf _).size _).trans (hp.size a), fun a side => ?_⟩
    obtain ⟨more, hqueue, hmore⟩ := hp.queue a side
    obtain ⟨more', hqueue', hmore'⟩ := (hf (p.run a).1).queue (p.run a).2 side
    refine ⟨more ++ more', ?_, fun task htask => ?_⟩
    · rw [run_bind, hqueue', hqueue, List.append_assoc]
    · exact (List.mem_append.mp htask).elim (hmore task) (hmore' task)

/-- A program that makes no continuations and does nothing to the router and the workers. -/
theorem adds_of_same {p : Program α} (hrouter : ∀ a, (p.run a).2.router = a.router)
    (hsize : ∀ a, (p.run a).2.cells.size = a.cells.size)
    (hworker : ∀ a side, (p.run a).2.worker side = a.worker side) : Adds P α p :=
  ⟨hrouter, hsize, fun a side => ⟨[], by rw [hworker, List.append_nil], nofun⟩⟩

theorem adds_accept (side : Side) {task : Task Job} (htask : P task) :
    Adds P _ ((Program.worker side).step (·.accept task)) := by
  refine ⟨fun a => router_setWorker a side _, fun a => congrArg Array.size (cells_setWorker a side _),
    fun a other => ?_⟩
  change ∃ more, ((a.setWorker side ((a.worker side).accept task).2).worker other).queue = _ ∧ _
  rw [worker_setWorker]
  split
  · next heq =>
    subst heq
    cases haccepting : (a.worker side).accepting with
    | false =>
      rw [Worker.accept_of_not_accepting haccepting]
      exact ⟨[], (List.append_nil _).symm, nofun⟩
    | true =>
      rw [Worker.accept_of_accepting haccepting]
      exact ⟨[task], rfl, fun other hother => List.mem_singleton.mp hother ▸ htask⟩
  · exact ⟨[], (List.append_nil _).symm, nofun⟩

theorem adds_submit {d : Delivery Nat Side} (hd : P (taskOf d)) :
    Adds P _ (Program.submit d) := by
  refine composes_adds.bind (adds_accept d.executor hd) fun answer => ?_
  cases answer with
  | ok _ => exact composes_adds.pure _
  | error e =>
    refine composes_adds.bind (adds_of_same (fun _ => rfl) (fun a => ?_) fun _ _ => rfl) fun c => ?_
    · exact Array.size_setIfInBounds
    split
    · exact adds_of_same (fun _ => rfl) (fun _ => rfl) fun _ _ => rfl
    · exact composes_adds.pure _

theorem adds_submitAll {deliveries : List (Delivery Nat Side)}
    (hall : ∀ d ∈ deliveries, P (taskOf d)) : Adds P _ (deliveries.forM Program.submit) := by
  induction deliveries with
  | nil => exact composes_adds.pure PUnit.unit
  | cons d deliveries ih =>
    exact composes_adds.bind (adds_submit (hall d List.mem_cons_self)) fun _ =>
      ih fun other hother => hall other (List.mem_cons_of_mem d hother)

/-- A message that is forwarded brings no outcome. -/
theorem adds_forward (side : Side) (msg : Message) :
    Adds (isPlain launching · = true) _ (Program.forward side msg) := by
  unfold Program.forward
  split
  · exact composes_adds.pure _
  · exact adds_accept side rfl

theorem reaches_adds : Composes.Reaches (Adds (isPlain launching · = true)) Program.fabric where
  get := adds_of_same (fun _ => rfl) (fun _ => rfl) fun _ _ => rfl
  forward := adds_forward

end Adds

section Deals

variable {launching : Bool} {returned : Option CmdResult} {cell : Nat} {a b c a' b' : App}

/-- Somebody queues tasks that bring no outcome, and does no more. -/
theorem Adds.deals {α : Type} {p : Program α} (hp : Adds (isPlain launching · = true) α p) (a : App) :
    Deals launching none cell a (p.run a).2 where
  routes := congrArg Router.routes (hp.router a)
  closed := congrArg (·.table.closed) (hp.router a)
  nextId := Or.inl (congrArg (·.table.nextId) (hp.router a))
  entries e he := by
    rw [hp.router] at he
    exact Or.inl he
  ended := nofun
  tasks side := by
    obtain ⟨more, hqueue, hmore⟩ := hp.queue a side
    exact ⟨more, hqueue, fun task htask => .plain (hmore task htask)⟩

/-- Nothing that matters has changed, before or after. -/
theorem Deals.of_same (h : Deals launching returned cell b b') (hrouter : b.router = a.router)
    (hsame : ∀ side, (b.worker side).queue = (a.worker side).queue) (hrouter' : a'.router = b'.router)
    (hsize' : a'.cells.size = b'.cells.size)
    (hsame' : ∀ side, (a'.worker side).queue = (b'.worker side).queue) :
    Deals launching returned cell a a' where
  routes := by rw [hrouter', h.routes, hrouter]
  closed := by rw [hrouter', h.closed, hrouter]
  nextId := by
    rw [hrouter', hsize', ← hrouter]
    exact h.nextId
  entries := by
    rw [hrouter', ← hrouter]
    exact h.entries
  ended := by
    rw [hrouter']
    exact h.ended
  tasks side := by
    obtain ⟨more, hqueue, hmore⟩ := h.tasks side
    refine ⟨more, by rw [hsame', hqueue, hsame], fun task htask => ?_⟩
    cases hmore task htask with
    | plain hplain => exact .plain hplain
    | fault outcome terminal => exact .fault outcome terminal
    | result hreturned hid hwaits => exact .result hreturned hid (hrouter ▸ hwaits)

/-- Nothing has changed that matters, if no result was returned that names a request. -/
theorem deals_of_same (hnone : ∀ result, returned = some result → result.requestId = none)
    (hrouter : a'.router = a.router)
    (hsame : ∀ side, (a'.worker side).queue = (a.worker side).queue) :
    Deals launching returned cell a a' where
  routes := congrArg Router.routes hrouter
  closed := congrArg (·.table.closed) hrouter
  nextId := Or.inl (congrArg (·.table.nextId) hrouter)
  entries e he := Or.inl (hrouter ▸ he)
  ended result id hreturned hid := by
    rw [hnone result hreturned] at hid
    cases hid
  tasks side := ⟨[], by rw [hsame, List.append_nil], nofun⟩

theorem router_onTable {α : Type}
    (op : PendingTable Nat Side → α × List (Delivery Nat Side) × PendingTable Nat Side) (a : App) :
    ((Program.fabric.onTable op).run a).2.router = (a.handed op).router :=
  (adds_submitAll (P := fun _ => True) fun _ _ => trivial).router (a.handed op)

theorem size_onTable {α : Type}
    (op : PendingTable Nat Side → α × List (Delivery Nat Side) × PendingTable Nat Side) (a : App) :
    ((Program.fabric.onTable op).run a).2.cells.size = a.cells.size :=
  (adds_submitAll (P := fun _ => True) fun _ _ => trivial).size (a.handed op)

/-- An operation of the table, with its deliveries. -/
theorem deals_onTable {α : Type}
    (op : PendingTable Nat Side → α × List (Delivery Nat Side) × PendingTable Nat Side)
    (hserves : a.router.table.Serves (op a.router.table).2.1 (op a.router.table).2.2)
    (hclosed : (op a.router.table).2.2.closed = a.router.table.closed)
    (hended : ∀ result id, returned = some result → result.requestId = some id →
      result.isFinal = true → (op a.router.table).2.2.find? id = none)
    (htasks : ∀ d ∈ (op a.router.table).2.1, Dealt launching returned cell a (taskOf d)) :
    Deals launching returned cell a ((Program.fabric.onTable op).run a).2 := by
  have hrouter := router_onTable op a
  constructor
  · rw [hrouter]
    rfl
  · rw [hrouter]
    exact hclosed
  · rw [hrouter]
    exact Or.inl hserves.nextId
  · rw [hrouter]
    exact fun e he => Or.inl (hserves.entries he)
  · rintro result id hreturned hid hfinal e he rfl
    rw [hrouter] at he
    have hfound := (hserves.handsOut.sharded.find?_eq_some_iff e.1 e.2).mpr he
    rw [hended result e.1 hreturned hid hfinal] at hfound
    cases hfound
  · exact (adds_submitAll htasks).queue (a.handed op)

/-- A result ends the request that it names, if it is final, and is queued for nobody else. -/
theorem deals_complete (ha : a.router.table.Sharded) {id : RequestId} {result : CmdResult}
    (hid : result.requestId = some id) :
    Deals launching (some result) cell a ((Program.fabric.complete id result).run a).2 := by
  have hserves := ha.serves_complete id result
  refine deals_onTable (·.complete id result) hserves ?_ ?_ fun d hd => ?_
  · cases hf : a.router.table.find? id with
    | none => rw [PendingTable.complete_of_none hf]; rfl
    | some request =>
      cases hfinal : result.isFinal with
      | true => rw [PendingTable.complete_of_final hf hfinal]; rfl
      | false => rw [PendingTable.complete_of_interim hf hfinal]
  · rintro result' id' heq hid' hfinal
    cases heq
    cases hid.symm.trans hid'
    rw [ha.find?_complete, if_pos ⟨rfl, hfinal⟩]
  · obtain ⟨⟨id', request'⟩, he, hsource⟩ := hserves.sources d hd
    rcases a.router.table.complete_cases id result with hnone | ⟨request, hone⟩
    · rw [hnone] at hd
      cases hd
    · rw [hone] at hd
      rw [List.mem_singleton.mp hd] at hsource ⊢
      obtain rfl : id = id' := congrArg Delivery.id hsource
      have hcell : request.continuation = request'.continuation :=
        congrArg Delivery.continuation hsource
      change Dealt _ _ _ _ (.job (.resume request.continuation (.ok result) result.isFinal))
      rw [hcell]
      exact .result rfl hid he

theorem deals_returnResult (ha : a.router.table.Sharded) (result : CmdResult) :
    Deals launching (some result) cell a ((Program.fabric.returnResult result).run a).2 := by
  rw [Fabric.returnResult, CmdResult.validate]
  cases hid : result.requestId with
  | none => exact deals_of_same (fun _ heq => Option.some.inj heq ▸ hid) rfl fun _ => rfl
  | some id => exact deals_complete ha hid

/-- A fault that ends a request is queued for its continuation. -/
theorem deals_fail (ha : a.router.table.Sharded) {id : RequestId} (fault : Fault)
    (hcell : ∀ request, (id, request) ∈ a.router.table.entries → request.continuation = cell) :
    Deals launching none cell a ((Program.fabric.fail id fault).run a).2 := by
  refine deals_onTable (·.fail id fault) (ha.serves_fail id fault) ?_ nofun fun d hd => ?_
  · cases hf : a.router.table.find? id with
    | none => rw [PendingTable.fail_of_none hf]
    | some request => rw [PendingTable.fail_of_some hf]; rfl
  · cases hf : a.router.table.find? id with
    | none =>
      rw [PendingTable.fail_of_none hf] at hd
      cases hd
    | some request =>
      rw [PendingTable.fail_of_some hf] at hd
      rw [List.mem_singleton.mp hd]
      change Dealt _ _ _ _ (.job (.resume request.continuation _ _))
      rw [hcell request ((ha.find?_eq_some_iff id request).mp hf)]
      exact .fault _ _

/-- A request is refused, and nothing but an id is used up; or it waits under that id. -/
theorem deals_accept (ha : a.router.table.Sharded) (request : PendingRequest Nat Side)
    (hcell : request.continuation < a.cells.size) :
    Deals launching none request.continuation a
      ((Program.fabric.router.step (·.accept request)).run a).2 := by
  change Deals launching none request.continuation a { a with router := (a.router.accept request).2 }
  have htasks (side : Side) : ∃ more : List (Task Job),
      (App.worker { a with router := (a.router.accept request).2 } side).queue =
        (a.worker side).queue ++ more ∧
      ∀ task ∈ more, Dealt launching none request.continuation a task :=
    ⟨[], (List.append_nil _).symm, nofun⟩
  have hclosed : (a.router.accept request).2.table.closed = a.router.table.closed :=
    a.router.table.allocate.2.closed_register ⟨a.router.table.nextId⟩ request
  rcases Router.accept_cases ha request with ⟨id, -, haccepts⟩ | ⟨e, -, hrefused⟩
  · refine ⟨rfl, hclosed, Or.inr ⟨haccepts.nextId, hcell⟩, fun e he => ?_, nofun, htasks⟩
    rcases List.mem_cons.mp (haccepts.entries.mem_iff.mp he) with rfl | hold
    · exact Or.inr ⟨haccepts.allocated, rfl, haccepts.nextId⟩
    · exact Or.inl hold
  · rw [hrefused] at hclosed htasks ⊢
    exact ⟨rfl, hclosed, Or.inr ⟨rfl, hcell⟩, fun e he => Or.inl he, nofun, htasks⟩

/-- Afterwards no other request begins to wait. -/
theorem Deals.before (h : Deals launching none cell a b) (h' : Deals launching none cell b c)
    (hnext : c.router.table.nextId = b.router.table.nextId) (hsize : c.cells.size = b.cells.size)
    (hentries : c.router.table.entries ⊆ b.router.table.entries) : Deals launching none cell a c where
  routes := h'.routes.trans h.routes
  closed := h'.closed.trans h.closed
  nextId := by
    rw [hnext, hsize]
    exact h.nextId
  entries e he := by
    rw [hnext]
    exact h.entries e (hentries he)
  ended := nofun
  tasks side := by
    obtain ⟨more, hqueue, hmore⟩ := h.tasks side
    obtain ⟨more', hqueue', hmore'⟩ := h'.tasks side
    refine ⟨more ++ more', by rw [hqueue', hqueue, List.append_assoc], fun task htask => ?_⟩
    rcases List.mem_append.mp htask with htask | htask
    · exact hmore task htask
    · cases hmore' task htask with
      | plain hplain => exact .plain hplain
      | fault outcome terminal => exact .fault outcome terminal
      | result hreturned => cases hreturned

/-- An outlet sends a command for a continuation. -/
theorem deals_sendThrough (ha : a.router.table.Sharded) (hcell : cell < a.cells.size)
    (p : Outlet Side) (cmd : Cmd) (streaming : Bool) :
    Deals launching none cell a ((p.sendCmd Program.fabric cmd cell streaming).run a).2 := by
  let request : PendingRequest Nat Side := { continuation := cell, executor := p.executor, streaming }
  have haccept : Deals launching none cell a
    ((Program.fabric.router.step (·.accept request)).run a).2 := deals_accept ha request hcell
  rcases Fabric.run_sendCmd Program.fabric (fun _ => rfl) p cmd cell streaming a with
    ⟨e, hrun⟩ | ⟨e, -, hrun⟩ | ⟨id, hanswer, hrun⟩
  · rw [hrun]
    exact deals_of_same nofun rfl fun _ => rfl
  · rw [hrun]
    exact haccept
  · rw [hrun]
    rcases Router.accept_cases ha request with ⟨id', hid, haccepts⟩ | ⟨e, hrefused, -⟩
    · obtain rfl : id' = id := Except.ok.inj (hid.symm.trans hanswer)
      set b := ((Program.fabric.router.step (·.accept request)).run a).2
      set dest := p.destination cmd.dest
      set msg : Message := .cmd (cmd.stamped id' p.src dest)
      have hadds : Adds (isPlain launching · = true) _ (Program.fabric.forwardTo dest msg) :=
        composes_adds.forwardTo reaches_adds dest msg
      have hrouter := hadds.router b
      have hforwarded := haccept.before (hadds.deals b) (congrArg (·.table.nextId) hrouter)
        (hadds.size b) (hrouter ▸ List.Subset.refl _)
      generalize (Program.fabric.forwardTo dest msg).run b = forwarded at hrouter hforwarded ⊢
      obtain ⟨e | _, c⟩ := forwarded
      · change c.router = b.router at hrouter
        have hsharded : c.router.table.Sharded := hrouter ▸ haccepts.sharded
        have hserves := hsharded.serves_fail id' e
        have hfailed := router_onTable (·.fail id' e) c
        have hsize := size_onTable (·.fail id' e) c
        refine hforwarded.before (deals_fail hsharded e fun request' hrequest' => ?_) ?_ hsize ?_
        · -- no other request waits under the id
          have hmine : (id', request) ∈ c.router.table.entries :=
            hrouter ▸ haccepts.entries.mem_iff.mpr List.mem_cons_self
          have hfound := (hsharded.find?_eq_some_iff id' request').mpr hrequest'
          rw [(hsharded.find?_eq_some_iff id' request).mpr hmine] at hfound
          exact congrArg PendingRequest.continuation (Option.some.inj hfound).symm
        · exact (congrArg (·.table.nextId) hfailed).trans hserves.nextId
        · intro entry hentry
          change entry ∈
            ((Program.fabric.onTable (·.fail id' e)).run c).2.router.table.entries at hentry
          rw [hfailed] at hentry
          exact hserves.entries hentry
      · exact hforwarded
    · cases hrefused.symm.trans hanswer

/-- A command is sent for a new continuation through the outlet of the side that its handler belongs
to. All else that is done is of no concern to the router and the workers. -/
theorem exists_sendThrough (a : App) (handler : Handler) (cmd : Cmd) (streaming : Bool) :
    ∃ entered : App, entered.router = a.router ∧ entered.cells.size = a.cells.size + 1 ∧
      (∀ side, entered.worker side = a.worker side) ∧
      let sent := (Program.sendCmd handler cmd streaming).run a
      let through := ((a.outlet handler.side).sendCmd Program.fabric cmd a.cells.size streaming).run
        entered
      sent.1 = through.1 ∧ sent.2.router = through.2.router ∧
        sent.2.cells.size = through.2.cells.size ∧ ∀ side, sent.2.worker side = through.2.worker side := by
  let pushed : App := { a with cells := a.cells.push (.ofHandler handler) }
  have hnew : (Program.newCell handler).run a = (a.cells.size, pushed) := rfl
  have hget : (get : Program App).run pushed = (pushed, pushed) := rfl
  rw [Program.sendCmd, run_bind, hnew, run_bind, Program.sendCmdFrom, run_bind, hget]
  cases handler.side with
  | engine =>
    refine ⟨pushed, rfl, Array.size_push _, fun _ => rfl, ?_⟩
    dsimp only
    have houtlet : pushed.outlet .engine = a.outlet .engine := rfl
    rw [houtlet]
    generalize ((a.outlet .engine).sendCmd Program.fabric cmd a.cells.size streaming).run pushed =
      through
    obtain ⟨e | id, b⟩ := through
    · exact ⟨rfl, rfl, rfl, fun _ => rfl⟩
    · exact ⟨rfl, rfl, rfl, fun _ => rfl⟩
  | tester =>
    let entered : App := { pushed with pool := pushed.pool.take }
    let through := ((a.outlet .tester).sendCmd Program.fabric cmd a.cells.size streaming).run entered
    have hduring : (PermitPool.during Program.pool ((pushed.outlet .tester).sendCmd Program.fabric cmd
        a.cells.size streaming)).run pushed =
          (through.1, { through.2 with pool := through.2.pool.give }) := rfl
    refine ⟨entered, rfl, Array.size_push _, fun _ => rfl, ?_⟩
    dsimp only
    rw [run_bind, hduring]
    change _ = through.1 ∧ _ = through.2.router ∧ _ = through.2.cells.size ∧
      ∀ side, _ = through.2.worker side
    dsimp only
    cases hanswer : through.1 with
    | error e => exact ⟨rfl, rfl, rfl, fun _ => rfl⟩
    | ok id => exact ⟨rfl, rfl, rfl, fun _ => rfl⟩

/-- The result that an operation returns. -/
def Operation.returned? : Operation → Option CmdResult
  | returnResult result => some result
  | sendCmd .. | send .. | complete _ | stop | await | acknowledge _ => none

/-- What an operation deals out, unless it closes the router. -/
theorem Operation.deals (op : Operation) (ha : a.router.table.Sharded)
    (hstop : op = .stop → a.lifecycle.phase ≠ .started) :
    Deals launching op.returned? a.cells.size a (op.perform.run a).2 := by
  cases op with
  | sendCmd handler cmd streaming =>
    obtain ⟨entered, hrouter, hsize, hworker, -, hrouter', hsize', hworker'⟩ :=
      exists_sendThrough a handler cmd streaming
    have hthrough : Deals launching none a.cells.size entered _ :=
      deals_sendThrough (hrouter ▸ ha) (hsize ▸ Nat.lt_succ_self _) (a.outlet handler.side) cmd
        streaming
    exact hthrough.of_same hrouter (fun side => congrArg Worker.queue (hworker side)) hrouter' hsize'
      fun side => congrArg Worker.queue (hworker' side)
  | send p msg => exact (composes_adds.send reaches_adds p msg).deals a
  | returnResult result => exact deals_returnResult ha result
  | complete completion =>
    have hadds : Adds (isPlain launching · = true) _ (Operation.complete completion).perform :=
      adds_accept .tester rfl
    exact hadds.deals a
  | stop =>
    rw [run_stop_of_ne (hstop rfl)]
    exact deals_of_same nofun rfl fun _ => rfl
  | await =>
    have hadds : Adds (isPlain launching · = true) _ Operation.await.perform := adds_accept .tester rfl
    exact hadds.deals a
  | acknowledge callback => exact deals_of_same nofun rfl fun _ => rfl

end Deals

namespace Deed

/-- The result that a deed returns. -/
def returned? : Deed → Option CmdResult
  | .act (.operate op) => op.returned?
  | .act (.note _) | .act (.take _) | .act (.finish ..) | .act (.call _) | .act .proceed
  | .giveUp => none

/-- Whether a deed queues the start of the extension. -/
def launches (s : Scene) : Deed → Bool
  | .act .proceed => s.runner = .starting
  | .act (.operate _) | .act (.note _) | .act (.take _) | .act (.finish ..) | .act (.call _)
  | .giveUp => false

/-- The application without the task that a deed begins with. -/
def relieved (s : Scene) : Deed → App
  | .act (.take side) => s.app.popped side
  | .act (.operate _) | .act (.note _) | .act (.finish ..) | .act (.call _) | .act .proceed
  | .giveUp => s.app

end Deed

namespace Scene

variable {owners : List Side} {s s' : Scene} {deed : Deed}

/-- The runner queues what brings no outcome, unless the application is being dropped. -/
theorem Lasting.deals_proceed (h : s.Lasting owners) (hproceed : s.proceed = some s')
    (hopen : s'.app.router.closed = false) :
    Deals (Deed.launches s (.act .proceed)) none s.app.cells.size s.app s'.app := by
  have hstays := hopen
  have hadds {α : Type} {p : Program α} (next : α → Runner)
      (hp : Adds (isPlain (Deed.launches s (.act .proceed)) · = true) α p) :
      Deals (Deed.launches s (.act .proceed)) none s.app.cells.size s.app (s.become p next).app :=
    hp.deals s.app
  have hflush (side : Side) : Adds (isPlain (Deed.launches s (.act .proceed)) · = true) _ (do
      let _ ← (Program.worker side).step (·.flush false)
      return (← (Program.worker side).get).queue.length) := by
    refine composes_adds.bind (adds_accept side rfl) fun _ => composes_adds.bind ?_ fun _ =>
      composes_adds.pure _
    cases side with
    | tester => exact adds_of_same (fun _ => rfl) (fun _ => rfl) fun _ _ => rfl
    | engine => exact adds_of_same (fun _ => rfl) (fun _ => rfl) fun _ _ => rfl
  have hschedule (callback : PhaseCallback) :
      Adds (isPlain (Deed.launches s (.act .proceed)) · = true) _ (Program.schedulePhase callback) :=
    composes_adds.bind (adds_accept .tester rfl) fun _ => composes_adds.pure _
  have hdropping (hdrops : s.runner.dropping = true) (hsame : s'.app.router = s.app.router) :
      False := by
    rw [hsame, (h.hushed hdrops).closed] at hstays
    cases hstays
  cases goesOn_of_proceed hproceed with
  | start => exact hadds _ (hschedule .start)
  | launch hrunner =>
    refine hadds _ (adds_accept .engine ?_)
    exact decide_eq_true hrunner
  | answer seen event =>
    refine hadds _ ?_
    cases event with
    | started => exact composes_adds.pure _
    | stopping => exact composes_adds.bind (hschedule .stop) fun _ => composes_adds.pure _
    | stopped => exact composes_adds.bind (hschedule .deinit) fun _ => composes_adds.pure _
    | deinited => exact composes_adds.pure _
  | flushTester => exact hadds _ (hflush .tester)
  | flushEngine => exact hadds _ (hflush .engine)
  | abort =>
    have hclosed := (h.accounted.sound.abort "tester dropped").closed
    exact absurd (hclosed.symm.trans hopen) (by decide)
  | shutTester hrunner =>
    exact (hdropping (hrunner ▸ rfl) (router_setWorker s.app .tester _)).elim
  | shutEngine hrunner =>
    exact (hdropping (hrunner ▸ rfl) (router_setWorker s.app .engine _)).elim
  | leave hrunner => exact (hdropping (hrunner ▸ rfl) rfl).elim

/-- Whatever happens while the router stays open. -/
theorem Lasting.deals (h : s.Lasting owners) (hdeed : s.undergo deed = some s')
    (hopen : s'.app.router.closed = false) :
    Deals (deed.launches s) deed.returned? s.app.cells.size (deed.relieved s) s'.app := by
  cases deed with
  | giveUp =>
    rcases giveUp_eq_some hdeed with ⟨-, rfl⟩ | ⟨_, -, rfl⟩
    · exact deals_of_same nofun rfl fun _ => rfl
    · have hclosed := (h.accounted.sound.abort "run timed out").closed
      exact absurd (hclosed.symm.trans hopen) (by decide)
  | act act =>
    cases act with
    | operate op =>
      cases hdeed
      refine op.deals h.accounted.placed.sharded fun hstop hstarted => ?_
      subst hstop
      have hproceeds := Operation.stop.proceeds h.accounted.placed h.paced
      have hclosed := (hproceeds.paced.hushed (h.accounted.placed.two_le_rank_stop hstarted)).closed
      exact absurd (hclosed.symm.trans hopen) (by decide)
    | note notes =>
      cases hdeed
      exact deals_of_same nofun rfl fun _ => rfl
    | take side =>
      obtain ⟨hunshaken, -⟩ := unshaken_take hdeed
      exact deals_of_same nofun hunshaken.router hunshaken.queue
    | finish side ended =>
      obtain ⟨hunshaken, -⟩ := unshaken_finish hdeed
      exact deals_of_same nofun hunshaken.router hunshaken.queue
    | call tester =>
      obtain ⟨-, rfl⟩ := call_eq_some hdeed
      exact deals_of_same nofun rfl fun _ => rfl
    | proceed => exact h.deals_proceed hdeed hopen

end Scene
end Switchboard.App
