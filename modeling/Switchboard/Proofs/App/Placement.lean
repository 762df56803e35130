import Switchboard.Proofs.App.Operations
/-!
# What operations put on the workers

A command belongs to the side that has sent it: its handler is one of that side, and what is
delivered to it is queued on the worker of that side. Operations queue deliveries, messages,
completions and marks, all behind what was queued before. When everything was cancelled and nothing
can be sent any more, they queue neither deliveries nor messages.
-/
namespace Switchboard.App

/-- An occasion on which a tester is called. -/
inductive Occasion where
  | phase (callback : PhaseCallback)
  /-- a handler is called with an outcome, or a message is handled -/
  | traffic

/-- The occasion that a task of the tester's worker is. -/
def occasionOf : Task Job → Option Occasion
  | .job (.phase callback) => some (.phase callback)
  | .job (.resume ..) | .job (.arrival _) => some .traffic
  | .job (.initExtension _) | .job .startExtension | .job (.completion _) | .mark => none

/-- A queue that has grown, by no phase, and by traffic only if that is allowed. -/
def Extends (traffic : Prop) (queue queue' : List (Task Job)) : Prop :=
  ∃ more, queue' = queue ++ more ∧
    ∀ task ∈ more, ∀ occasion, occasionOf task = some occasion → occasion = .traffic ∧ traffic

/-- The router and its table are closed, and nothing waits. -/
structure Hushed (a : App) : Prop where
  closed : a.router.closed = true
  table : a.router.table.closed = true
  entries : a.router.table.entries = []

/-- Everything is in its place. Continuations have owners, one for each; handlers, requests and
deliveries are with the owners of their continuations. A worker that was shut down has no requests
to wait for. -/
structure Placed (owners : List Side) (a : App) : Prop where
  sharded : a.router.table.Sharded
  shut : ∀ side, (a.worker side).accepting = false →
    a.router.table.closed = true ∧ a.router.table.entries = []
  size : owners.length = a.cells.size
  handlers : ∀ (i : Nat) (c : Continuation Handler) (handler : Handler), a.cells[i]? = some c →
    c.slot = .waiting handler → owners[i]? = some handler.side
  entries : ∀ e ∈ a.router.table.entries, owners[e.2.continuation]? = some e.2.executor
  queued : ∀ side i outcome terminal,
    .job (.resume i outcome terminal) ∈ (a.worker side).queue → owners[i]? = some side

/-- What comes of an application while operations are performed: everything is in its place, and the
queues have grown. -/
structure Grows (owners : List Side) (traffic : Prop) (a a' : App) : Prop where
  placed : a'.Placed owners
  queue : ∀ side, Extends traffic (a.worker side).queue (a'.worker side).queue
  lifecycle : a'.lifecycle = a.lifecycle
  tester : a'.tester = a.tester

/-- Nothing that has a place has changed. -/
structure Unmoved (a a' : App) : Prop where
  router : a'.router = a.router
  worker : ∀ side, a'.worker side = a.worker side
  cells : a'.cells = a.cells

section Queues

variable {traffic : Prop} {queue queue' queue'' : List (Task Job)}

theorem Extends.refl (traffic : Prop) (queue : List (Task Job)) : Extends traffic queue queue :=
  ⟨[], (List.append_nil queue).symm, nofun⟩

theorem Extends.trans (h : Extends traffic queue queue') (h' : Extends traffic queue' queue'') :
    Extends traffic queue queue'' := by
  obtain ⟨more, rfl, hmore⟩ := h
  obtain ⟨more', rfl, hmore'⟩ := h'
  refine ⟨more ++ more', List.append_assoc _ _ _, fun task htask => ?_⟩
  rcases List.mem_append.mp htask with htask | htask
  · exact hmore task htask
  · exact hmore' task htask

theorem Extends.imp {traffic' : Prop} (h : Extends traffic queue queue')
    (himp : traffic → traffic') : Extends traffic' queue queue' := by
  obtain ⟨more, rfl, hmore⟩ := h
  refine ⟨more, rfl, fun task htask occasion hoccasion => ?_⟩
  obtain ⟨heq, htraffic⟩ := hmore task htask occasion hoccasion
  exact ⟨heq, himp htraffic⟩

end Queues

section Placement

variable {owners : List Side} {traffic : Prop} {a b c : App}

theorem Hushed.of_router (ha : a.Hushed) (h : b.router = a.router) : b.Hushed := by
  obtain ⟨hclosed, htable, hentries⟩ := ha
  rw [← h] at hclosed htable hentries
  exact ⟨hclosed, htable, hentries⟩

theorem Unmoved.hushed (h : Unmoved a b) (ha : a.Hushed) : b.Hushed := ha.of_router h.router

/-- Only the router has changed. -/
theorem Placed.setRouter (ha : a.Placed owners) {r : Router Nat Side Side}
    (hsharded : r.table.Sharded)
    (hshut : a.router.table.closed = true ∧ a.router.table.entries = [] →
      r.table.closed = true ∧ r.table.entries = [])
    (hentries : ∀ e ∈ r.table.entries, owners[e.2.continuation]? = some e.2.executor) :
    { a with router := r }.Placed owners where
  sharded := hsharded
  shut side hside := hshut (ha.shut side hside)
  size := ha.size
  handlers := ha.handlers
  entries := hentries
  queued := ha.queued

/-- Only one worker has changed. -/
theorem Placed.setWorker (ha : a.Placed owners) (side : Side) {w : Worker Job}
    (hshut : w.accepting = false →
      a.router.table.closed = true ∧ a.router.table.entries = [])
    (hqueued : ∀ i outcome terminal, .job (.resume i outcome terminal) ∈ w.queue →
      owners[i]? = some side) : (a.setWorker side w).Placed owners where
  sharded := by rw [router_setWorker]; exact ha.sharded
  shut other := by
    rw [worker_setWorker, router_setWorker]
    split
    · exact hshut
    · exact ha.shut other
  size := by rw [cells_setWorker]; exact ha.size
  handlers := by rw [cells_setWorker]; exact ha.handlers
  entries := by rw [router_setWorker]; exact ha.entries
  queued other := by
    rw [worker_setWorker]
    split
    · next heq => exact heq ▸ hqueued
    · exact ha.queued other

/-- Whoever owns a continuation owns it still when there are more of them. -/
theorem getElem?_more {more : List Side} {i : Nat} {side : Side} (h : owners[i]? = some side) :
    (owners ++ more)[i]? = some side := by
  obtain ⟨hlt, -⟩ := List.getElem?_eq_some_iff.mp h
  rw [List.getElem?_append_left hlt, h]

/-- A new continuation belongs to the side of its handler. -/
theorem Placed.push (ha : a.Placed owners) (handler : Handler) :
    { a with cells := a.cells.push (.ofHandler handler) }.Placed (owners ++ [handler.side]) := by
  constructor
  · exact ha.sharded
  · exact ha.shut
  · rw [List.length_append, ha.size]
    exact (Array.size_push _).symm
  · intro i c handler' hfound hslot
    change (a.cells.push _)[i]? = some c at hfound
    rw [Array.getElem?_push] at hfound
    split at hfound
    · next heq =>
      obtain rfl := Option.some.inj hfound
      cases hslot
      rw [heq, ← ha.size]
      exact List.getElem?_concat_length
    · exact getElem?_more (ha.handlers i c handler' hfound hslot)
  · exact fun e he => getElem?_more (ha.entries e he)
  · exact fun side i outcome terminal h => getElem?_more (ha.queued side i outcome terminal h)

theorem Placed.unmoved (ha : a.Placed owners) (h : Unmoved a b) : b.Placed owners where
  sharded := by rw [h.router]; exact ha.sharded
  shut side := by rw [h.worker, h.router]; exact ha.shut side
  size := by rw [h.cells]; exact ha.size
  handlers := by rw [h.cells]; exact ha.handlers
  entries := by rw [h.router]; exact ha.entries
  queued side := by rw [h.worker]; exact ha.queued side

/-- No queue has grown. -/
theorem Placed.grows (hb : b.Placed owners) (hworker : ∀ side, b.worker side = a.worker side)
    (hlifecycle : b.lifecycle = a.lifecycle) (htester : b.tester = a.tester) :
    Grows owners traffic a b where
  placed := hb
  queue side := by
    rw [hworker]
    exact .refl _ _
  lifecycle := hlifecycle
  tester := htester

theorem Placed.still (ha : a.Placed owners) : Grows owners traffic a a :=
  ha.grows (fun _ => rfl) rfl rfl

theorem Grows.trans (h : Grows owners traffic a b) (h' : Grows owners traffic b c) :
    Grows owners traffic a c where
  placed := h'.placed
  queue side := (h.queue side).trans (h'.queue side)
  lifecycle := h'.lifecycle.trans h.lifecycle
  tester := h'.tester.trans h.tester

theorem Grows.imp {traffic' : Prop} (h : Grows owners traffic a b) (himp : traffic → traffic') :
    Grows owners traffic' a b :=
  ⟨h.placed, fun side => (h.queue side).imp himp, h.lifecycle, h.tester⟩

@[simp] theorem lifecycle_setWorker (a : App) (side : Side) (w : Worker Job) :
    (a.setWorker side w).lifecycle = a.lifecycle := by
  cases side <;> rfl

@[simp] theorem name_setWorker (a : App) (side : Side) (w : Worker Job) :
    (a.setWorker side w).name = a.name := by
  cases side <;> rfl

@[simp] theorem extension_setWorker (a : App) (side : Side) (w : Worker Job) :
    (a.setWorker side w).extension = a.extension := by
  cases side <;> rfl

@[simp] theorem tester_setWorker (a : App) (side : Side) (w : Worker Job) :
    (a.setWorker side w).tester = a.tester := by
  cases side <;> rfl

@[simp] theorem counters_setWorker (a : App) (side : Side) (w : Worker Job) :
    (a.setWorker side w).counters = a.counters := by
  cases side <;> rfl

/-- A worker that was not shut down takes a task of its own. -/
theorem Placed.enqueued (ha : a.Placed owners) {side : Side} {task : Task Job}
    (haccepting : (a.worker side).accepting = true)
    (howner : ∀ i outcome terminal, .job (.resume i outcome terminal) = task →
      owners[i]? = some side)
    (hoccasion : ∀ occasion, occasionOf task = some occasion → occasion = .traffic ∧ traffic) :
    Grows owners traffic a (a.enqueued side task) where
  placed := by
    apply ha.setWorker side
    · intro hshut
      exact absurd haccepting (Bool.eq_false_iff.mp hshut)
    · intro i outcome terminal h
      rcases List.mem_append.mp h with h | h
      · exact ha.queued side i outcome terminal h
      · exact howner i outcome terminal (List.mem_singleton.mp h)
  queue other := by
    rw [App.enqueued, worker_setWorker]
    split
    · next heq =>
      subst heq
      refine ⟨[task], rfl, fun other hother => ?_⟩
      rw [List.mem_singleton.mp hother]
      exact hoccasion
    · exact .refl _ _
  lifecycle := lifecycle_setWorker a side _
  tester := tester_setWorker a side _

/-- A worker that was shut down takes nothing. -/
theorem Placed.accept (ha : a.Placed owners) {side : Side} {task : Task Job}
    (howner : ∀ i outcome terminal, .job (.resume i outcome terminal) = task →
      owners[i]? = some side)
    (hoccasion : ∀ occasion, occasionOf task = some occasion → occasion = .traffic ∧ traffic) :
    Grows owners traffic a (((Program.worker side).step (·.accept task)).run a).2 := by
  change Grows owners traffic a (a.setWorker side ((a.worker side).accept task).2)
  cases haccepting : (a.worker side).accepting with
  | false =>
    rw [Worker.accept_of_not_accepting haccepting]
    have hsame : a.setWorker side (a.worker side) = a := by
      cases side
      · rfl
      · rfl
    rw [hsame]
    exact ha.still
  | true =>
    rw [Worker.accept_of_accepting haccepting]
    exact ha.enqueued haccepting howner hoccasion

end Placement

section Deliveries

variable {owners : List Side} {a : App}

theorem Placed.submitAll {deliveries : List (Delivery Nat Side)} (ha : a.Placed owners)
    (hopen : a.Open)
    (howners : ∀ d ∈ deliveries, owners[d.continuation]? = some d.executor) :
    Grows owners True a ((deliveries.forM Program.submit).run a).2 ∧
      ((deliveries.forM Program.submit).run a).2.router = a.router := by
  induction deliveries generalizing a with
  | nil => exact ⟨ha.still, rfl⟩
  | cons d deliveries ih =>
    have hrun : ((d :: deliveries).forM Program.submit).run a =
        (deliveries.forM Program.submit).run ((Program.submit d).run a).2 := rfl
    have hfirst : Grows owners True a (a.enqueued d.executor (taskOf d)) := by
      apply ha.enqueued (hopen d.executor)
      · intro i outcome terminal h
        cases h
        exact howners d List.mem_cons_self
      · intro occasion h
        cases h
        exact ⟨rfl, trivial⟩
    have hopen' : (a.enqueued d.executor (taskOf d)).Open := by
      intro side
      rw [App.enqueued, worker_setWorker]
      split
      · next heq => exact heq ▸ hopen d.executor
      · exact hopen side
    obtain ⟨hrest, hrouter⟩ := ih hfirst.placed hopen' fun other hother =>
      howners other (List.mem_cons_of_mem d hother)
    rw [hrun, run_submit hopen]
    exact ⟨hfirst.trans hrest, hrouter.trans (router_setWorker a _ _)⟩

/-- The table hands out deliveries only of requests that wait, so none when nothing waits. -/
theorem Placed.onTable {α : Type} (ha : a.Placed owners)
    (op : PendingTable Nat Side → α × List (Delivery Nat Side) × PendingTable Nat Side)
    (hserves : a.router.table.Serves (op a.router.table).2.1 (op a.router.table).2.2) :
    Grows owners (a.router.table.entries ≠ []) a ((Program.fabric.onTable op).run a).2 ∧
      ((Program.fabric.onTable op).run a).2.router = (a.handed op).router := by
  change Grows owners _ a (((op a.router.table).2.1.forM Program.submit).run (a.handed op)).2 ∧
    (((op a.router.table).2.1.forM Program.submit).run (a.handed op)).2.router = _
  have hplaced : (a.handed op).Placed owners := by
    apply ha.setRouter hserves.handsOut.sharded
    · intro ⟨hclosed, hempty⟩
      exact ⟨hserves.handsOut.closed hclosed, (hserves.handsOut.empty hempty).2⟩
    · exact fun e he => ha.entries e (hserves.entries he)
  by_cases hempty : a.router.table.entries = []
  · rw [(hserves.handsOut.empty hempty).1]
    exact ⟨hplaced.grows (fun _ => rfl) rfl rfl, rfl⟩
  · have hopen : (a.handed op).Open := by
      intro side
      by_contra hshut
      exact hempty (ha.shut side (Bool.not_eq_true _ ▸ hshut)).2
    obtain ⟨hgrows, hrouter⟩ := hplaced.submitAll hopen fun d hd => by
      obtain ⟨e, he, heq⟩ := hserves.sources d hd
      rw [heq]
      exact ha.entries e he
    have hhanded : Grows owners True a (a.handed op) := hplaced.grows (fun _ => rfl) rfl rfl
    exact ⟨(hhanded.trans hgrows).imp fun _ => hempty, hrouter⟩

end Deliveries

/-- A program that leaves everything in its place as long as the router is open. -/
def Passes (owners : List Side) (α : Type) (p : Program α) : Prop :=
  ∀ a : App, a.Placed owners → a.router.closed = false →
    Grows owners True a (p.run a).2 ∧ (p.run a).2.router.closed = false

/-- A program that leaves everything in its place, and that makes no traffic when nothing waits and
nothing can be sent. -/
def Behaves (owners : List Side) (α : Type) (p : Program α) : Prop :=
  ∀ a : App, a.Placed owners →
    Grows owners (¬ a.Hushed) a (p.run a).2 ∧ (a.Hushed → (p.run a).2.Hushed)

section Sends

variable {owners : List Side}

theorem composes_passes : Composes (Passes owners) where
  pure _ _ ha hopen := ⟨ha.still, hopen⟩
  bind hp hf a ha hopen := by
    obtain ⟨hgrows, hopen'⟩ := hp a ha hopen
    obtain ⟨hgrows', hopen''⟩ := hf _ _ hgrows.placed hopen'
    exact ⟨hgrows.trans hgrows', hopen''⟩

theorem passes_onTable {α : Type}
    {op : PendingTable Nat Side → α × List (Delivery Nat Side) × PendingTable Nat Side}
    (hop : ∀ t : PendingTable Nat Side, t.Sharded → t.Serves (op t).2.1 (op t).2.2) :
    Passes owners α (Program.fabric.onTable op) := by
  intro a ha hopen
  obtain ⟨hgrows, hrouter⟩ := ha.onTable _ (hop _ ha.sharded)
  refine ⟨hgrows.imp fun _ => trivial, ?_⟩
  rw [hrouter]
  exact hopen

theorem passes_forward (side : Side) (msg : Message) :
    Passes owners _ (Program.forward side msg) := by
  unfold Program.forward
  split
  · exact composes_passes.pure _
  · intro a ha hopen
    constructor
    · apply ha.accept
      · exact fun _ _ _ h => nomatch h
      · intro occasion h
        cases h
        exact ⟨rfl, trivial⟩
    · change (a.setWorker side _).router.closed = false
      rw [router_setWorker]
      exact hopen

theorem fits_passes : Composes.Fits (Passes owners) Program.fabric where
  get _ ha hopen := ⟨ha.still, hopen⟩
  complete id result := passes_onTable fun _ ht => ht.serves_complete id result
  fail id fault := passes_onTable fun _ ht => ht.serves_fail id fault
  forward := passes_forward

/-- A request waits with the owner of its continuation. -/
theorem passes_accept {request : PendingRequest Nat Side}
    (howner : owners[request.continuation]? = some request.executor) :
    Passes owners _ (Program.fabric.router.step (·.accept request)) := by
  intro a ha hopen
  change Grows owners True a { a with router := (a.router.accept request).2 } ∧
    (a.router.accept request).2.closed = false
  refine ⟨Placed.grows ?_ (fun _ => rfl) rfl rfl, hopen⟩
  have hshut : a.router.table.closed = true ∧ a.router.table.entries = [] →
      (a.router.accept request).2.table.closed = true ∧
        (a.router.accept request).2.table.entries = [] := by
    intro h
    rw [Router.accept_of_closed h.1]
    exact h
  rcases Router.accept_cases ha.sharded request with ⟨id, -, haccepts⟩ | ⟨e, -, hrefused⟩
  · refine ha.setRouter haccepts.sharded hshut fun e he => ?_
    rcases List.mem_cons.mp (haccepts.entries.mem_iff.mp he) with rfl | he
    · exact howner
    · exact ha.entries e he
  · rw [hrefused] at hshut ⊢
    exact ha.setRouter ha.sharded.allocate hshut ha.entries

theorem Behaves.of_passes {α : Type} {p : Program α} (hp : Passes owners α p)
    (hclosed : ∀ a : App, a.router.closed = true → (p.run a).2 = a) : Behaves owners α p := by
  intro a ha
  cases hopen : a.router.closed with
  | true =>
    rw [hclosed a hopen]
    exact ⟨ha.still, id⟩
  | false =>
    have hloud : ¬ a.Hushed := fun h => by
      rw [h.closed] at hopen
      cases hopen
    obtain ⟨hgrows, -⟩ := hp a ha hopen
    exact ⟨hgrows.imp fun _ => hloud, fun h => absurd h hloud⟩

/-- An outlet sends a command for a continuation of its own side. -/
theorem behaves_sendThrough {p : Outlet Side} {i : Nat} (howner : owners[i]? = some p.executor)
    (cmd : Cmd) (streaming : Bool) :
    Behaves owners _ (p.sendCmd Program.fabric cmd i streaming) := by
  apply Behaves.of_passes
  · exact composes_passes.sendCmd fits_passes p cmd (passes_accept howner)
  · intro a hclosed
    obtain ⟨fault, hrun⟩ := run_sendCmd_of_closed hclosed p cmd i streaming
    rw [hrun]

theorem behaves_send (p : Outlet Side) (msg : Message) :
    Behaves owners _ (p.send Program.fabric msg) := by
  apply Behaves.of_passes
  · exact composes_passes.send fits_passes.toReaches p msg
  · intro a hclosed
    obtain ⟨fault, hrun⟩ := run_send_of_closed hclosed p msg
    rw [hrun]

end Sends

section Operations

variable {owners : List Side}

theorem composes_behaves : Composes (Behaves owners) where
  pure _ _ ha := ⟨ha.still, id⟩
  bind hp hf a ha := by
    obtain ⟨hgrows, hhushed⟩ := hp a ha
    obtain ⟨hgrows', hhushed'⟩ := hf _ _ hgrows.placed
    exact ⟨hgrows.trans (hgrows'.imp fun hloud h => hloud (hhushed h)),
      fun h => hhushed' (hhushed h)⟩

theorem behaves_of_unmoved {α : Type} {p : Program α} (h : ∀ a, Unmoved a (p.run a).2)
    (hlifecycle : ∀ a, (p.run a).2.lifecycle = a.lifecycle)
    (htester : ∀ a, (p.run a).2.tester = a.tester) : Behaves owners α p :=
  fun a ha => ⟨(ha.unmoved (h a)).grows (h a).worker (hlifecycle a) (htester a), (h a).hushed⟩

theorem behaves_onTable {α : Type}
    {op : PendingTable Nat Side → α × List (Delivery Nat Side) × PendingTable Nat Side}
    (hop : ∀ t : PendingTable Nat Side, t.Sharded → t.Serves (op t).2.1 (op t).2.2) :
    Behaves owners α (Program.fabric.onTable op) := by
  intro a ha
  have hserves := hop _ ha.sharded
  obtain ⟨hgrows, hrouter⟩ := ha.onTable _ hserves
  refine ⟨hgrows.imp fun hsome hhushed => hsome hhushed.entries, fun hhushed => ?_⟩
  constructor
  · rw [hrouter]
    exact hhushed.closed
  · rw [hrouter]
    exact hserves.handsOut.closed hhushed.table
  · rw [hrouter]
    exact (hserves.handsOut.empty hhushed.entries).2

/-- Completions and marks are no traffic. -/
theorem behaves_accept (side : Side) (task : Task Job) (hoccasion : occasionOf task = none)
    (hresume : ∀ i outcome terminal, .job (.resume i outcome terminal) ≠ task) :
    Behaves owners _ ((Program.worker side).step (·.accept task)) := by
  intro a ha
  constructor
  · apply ha.accept
    · exact fun i outcome terminal h => absurd h (hresume i outcome terminal)
    · rw [hoccasion]
      exact fun _ h => nomatch h
  · exact fun hhushed => hhushed.of_router (router_setWorker a side _)

/-- The router closes. -/
theorem behaves_closing {f : Router Nat Side Side → Router Nat Side Side}
    (htable : ∀ r, (f r).table = r.table) (hclosed : ∀ r, (f r).closed = true) :
    Behaves owners _ (Program.router.modify f) := by
  intro a ha
  change Grows owners _ a { a with router := f a.router } ∧
    (a.Hushed → { a with router := f a.router }.Hushed)
  constructor
  · refine Placed.grows ?_ (fun _ => rfl) rfl rfl
    apply ha.setRouter
    · rw [htable]
      exact ha.sharded
    · rw [htable]
      exact id
    · rw [htable]
      exact ha.entries
  · intro hhushed
    refine ⟨hclosed a.router, ?_, ?_⟩
    · change (f a.router).table.closed = true
      rw [htable]
      exact hhushed.table
    · change (f a.router).table.entries = []
      rw [htable]
      exact hhushed.entries

theorem behaves_cancelAll (reason : String) :
    Behaves owners _ (Program.fabric.cancelAll reason) :=
  behaves_onTable fun t _ => t.serves_cancelAll reason

theorem behaves_tearDown (reason : String) : Behaves owners _ (Program.tearDown reason) :=
  composes_behaves.bind (behaves_closing (f := .close) (fun _ => rfl) fun _ => rfl) fun _ =>
    behaves_cancelAll reason

theorem behaves_abort (reason : String) : Behaves owners _ (Program.abort reason) :=
  composes_behaves.bind (behaves_closing (f := .clearRoutes) (fun _ => rfl) fun _ => rfl) fun _ =>
    behaves_cancelAll reason

/-- After a teardown nothing waits and nothing can be sent. -/
theorem Placed.hushed_tearDown {a : App} (ha : a.Placed owners) (reason : String) :
    ((Program.tearDown reason).run a).2.Hushed := by
  have hrun : ((Program.tearDown reason).run a).2 =
    ((Program.fabric.cancelAll reason).run { a with router := a.router.close }).2 := rfl
  have hclosed : { a with router := a.router.close }.Placed owners :=
    ha.setRouter ha.sharded id ha.entries
  obtain ⟨-, hrouter⟩ := hclosed.onTable (·.cancelAll reason)
    (PendingTable.serves_cancelAll _ reason)
  rw [hrun]
  constructor
  · exact congrArg Router.closed hrouter
  · exact congrArg (·.table.closed) hrouter
  · exact (congrArg (·.table.entries) hrouter).trans (PendingTable.entries_cancelAll _ reason)

end Operations

end Switchboard.App
