import Mathlib.Algebra.Group.Pi.Basic
import Mathlib.Algebra.GroupWithZero.Nat
import Switchboard.App.State
import Switchboard.Proofs.Continuation.Order
import Switchboard.Proofs.Pending.Endings
/-!
# Accounts of an application

Every command that the table has taken is owed one ending. The table owes it while the command
waits; then the ending is queued on the worker of the sender, and then it arrives at the
continuation. Workers refuse nothing before the table is empty and closed for good, so no ending
is lost on the way: the endings on all these places are as many as the commands that were taken.
-/
namespace Switchboard.App

/-- The endings for a continuation that a task is. -/
def endingsOf : Task Job → Nat → Nat
  | .job (.resume cell _ terminal) => fun i => if terminal ∧ cell = i then 1 else 0
  | .job (.arrival _) | .job (.initExtension _) | .job .startExtension | .job (.phase _)
  | .job (.completion _) | .mark => 0

/-- A delivery that is queued is terminal if and only if it carries an outcome that ends a
request. -/
def HonestTask : Task Job → Prop
  | .job (.resume _ outcome terminal) => terminal = outcome.isTerminal
  | .job (.arrival _) | .job (.initExtension _) | .job .startExtension | .job (.phase _)
  | .job (.completion _) | .mark => True

/-- The endings for a continuation in a queue. -/
def queuedIn (queue : List (Task Job)) (i : Nat) : Nat := (queue.map (endingsOf · i)).sum

@[simp] theorem queuedIn_nil (i : Nat) : queuedIn [] i = 0 := rfl

theorem queuedIn_cons (task : Task Job) (tasks : List (Task Job)) (i : Nat) :
    queuedIn (task :: tasks) i = endingsOf task i + queuedIn tasks i := by
  simp [queuedIn]

theorem queuedIn_concat (tasks : List (Task Job)) (task : Task Job) (i : Nat) :
    queuedIn (tasks ++ [task]) i = queuedIn tasks i + endingsOf task i := by
  simp [queuedIn]

/-- All that has happened at a continuation. -/
def history (a : App) (i : Nat) : List Visit := (a.cells[i]?.map (·.history)).getD []

/-- The stage of a continuation. -/
def stage (a : App) (i : Nat) : Stage := Stage.after (a.history i)

/-- The endings for a continuation that wait, are queued or have arrived. -/
def endingsFor (a : App) (i : Nat) : Nat :=
  a.router.table.waitingFor i + queuedIn a.testerWorker.queue i + queuedIn a.engineWorker.queue i +
    (a.history i).countP Visit.isEnd

/-- The invariant of an application. With the endings in hand, which are neither waiting nor queued
nor arrived, every command that was taken has one ending. -/
structure Sound (a : App) (hand : Nat → Nat) : Prop where
  sharded : a.router.table.Sharded
  orderly : ∀ (i : Nat) (c : Continuation Handler), a.cells[i]? = some c → c.Orderly
  honest : ∀ side, ∀ task ∈ (a.worker side).queue, HonestTask task
  endings : ∀ i, hand i + a.endingsFor i = a.router.table.takenFor i
  inRange : ∀ i ∈ a.router.table.taken, i < a.cells.size
  once : a.router.table.taken.Nodup
  sent : ∀ i ∈ a.sent, i ∈ a.router.table.taken
  shut : ∀ side, (a.worker side).accepting = false →
    a.router.table.closed = true ∧ a.router.table.entries = []

/-- What stays as it is in a table: that it is closed, what it has taken, and that it is closed and
empty. -/
structure TablePersists (t t' : PendingTable Nat Side) : Prop where
  closed : t.closed = true → t'.closed = true
  taken : ∀ i ∈ t.taken, i ∈ t'.taken
  final : t.closed = true → t'.taken = t.taken
  empty : t.closed = true → t.entries = [] → t'.entries = []

/-- What stays as it is in an application while a callback runs or somebody acts from outside: that
it is closed, workers that were shut down, and which commands were sent. A closed table takes no
more commands. -/
structure Persists (a a' : App) : Prop where
  table : TablePersists a.router.table a'.router.table
  closed : a.router.closed = true → a'.router.closed = true
  routes : a.router.routes = [] → a'.router.routes = []
  accepting : ∀ side, (a'.worker side).accepting = (a.worker side).accepting
  queue : ∀ side, (a.worker side).accepting = false →
    (a'.worker side).queue = (a.worker side).queue
  cells : a.cells.size ≤ a'.cells.size
  sent : a.sent <+: a'.sent
  final : a.router.table.closed = true → a'.sent = a.sent
  dropped : a'.dropped = a.dropped

theorem TablePersists.refl (t : PendingTable Nat Side) : TablePersists t t :=
  ⟨fun h => h, fun _ h => h, fun _ => rfl, fun _ h => h⟩

theorem TablePersists.trans {t t' t'' : PendingTable Nat Side} (h : TablePersists t t')
    (h' : TablePersists t' t'') : TablePersists t t'' where
  closed hc := h'.closed (h.closed hc)
  taken i hi := h'.taken i (h.taken i hi)
  final hc := (h'.final (h.closed hc)).trans (h.final hc)
  empty hc he := h'.empty (h.closed hc) (h.empty hc he)

theorem Persists.trans {a a' a'' : App} (h : Persists a a') (h' : Persists a' a'') :
    Persists a a'' where
  table := h.table.trans h'.table
  closed hc := h'.closed (h.closed hc)
  routes hr := h'.routes (h.routes hr)
  accepting side := (h'.accepting side).trans (h.accepting side)
  queue side hs := (h'.queue side ((h.accepting side).trans hs)).trans (h.queue side hs)
  cells := Nat.le_trans h.cells h'.cells
  sent := h.sent.trans h'.sent
  final hc := (h'.final (h.table.closed hc)).trans (h.final hc)
  dropped := h'.dropped.trans h.dropped

/-- Besides, nothing happens at any continuation. -/
structure Calm (a a' : App) : Prop where
  persists : Persists a a'
  history : ∀ i, a'.history i = a.history i

theorem Calm.trans {a a' a'' : App} (h : Calm a a') (h' : Calm a' a'') : Calm a a'' :=
  ⟨h.persists.trans h'.persists, fun i => (h'.history i).trans (h.history i)⟩

theorem Calm.stage {a a' : App} (h : Calm a a') (i : Nat) : a'.stage i = a.stage i :=
  congrArg Stage.after (h.history i)

theorem history_of_getElem? {a : App} {i : Nat} {c : Continuation Handler}
    (hfound : a.cells[i]? = some c) : a.history i = c.history := by
  rw [history, hfound]
  rfl

theorem history_of_size_le {a : App} {i : Nat} (h : a.cells.size ≤ i) : a.history i = [] := by
  rw [history, Array.getElem?_eq_none h]
  rfl

/-- The part of an application that its accounts are about. -/
structure Core where
  cells : Array (Continuation Handler)
  router : Router Nat Side Side
  testerWorker : Worker Job
  engineWorker : Worker Job
  sent : List Nat
  dropped : Bool

/-- What counts of an application. -/
def core (a : App) : Core where
  cells := a.cells
  router := a.router
  testerWorker := a.testerWorker
  engineWorker := a.engineWorker
  sent := a.sent
  dropped := a.dropped

/-- Nothing that counts has changed. -/
def Same (a a' : App) : Prop := a'.core = a.core

section Same

variable {a a' : App}

theorem Same.cells (h : Same a a') : a'.cells = a.cells := congrArg Core.cells h

theorem Same.router (h : Same a a') : a'.router = a.router := congrArg Core.router h

theorem Same.worker (h : Same a a') (side : Side) : a'.worker side = a.worker side := by
  cases side with
  | tester => exact congrArg Core.testerWorker h
  | engine => exact congrArg Core.engineWorker h

theorem Same.sent (h : Same a a') : a'.sent = a.sent := congrArg Core.sent h

theorem Same.dropped (h : Same a a') : a'.dropped = a.dropped := congrArg Core.dropped h

end Same

/-- Whatever happens to the continuations that are there, if nothing else changes. -/
theorem persists_of_cells {a a' : App} (hrouter : a'.router = a.router)
    (hworker : ∀ side, a'.worker side = a.worker side) (hcells : a.cells.size ≤ a'.cells.size)
    (hsent : a'.sent = a.sent) (hdropped : a'.dropped = a.dropped) : Persists a a' where
  table := by
    rw [hrouter]
    exact .refl _
  closed hc := by
    rw [hrouter]
    exact hc
  routes hr := by
    rw [hrouter]
    exact hr
  accepting side := by rw [hworker]
  queue side _ := by rw [hworker]
  cells := hcells
  sent := ⟨[], by rw [List.append_nil, hsent]⟩
  final _ := hsent
  dropped := hdropped

theorem Persists.refl (a : App) : Persists a a :=
  persists_of_cells rfl (fun _ => rfl) (Nat.le_refl _) rfl rfl

theorem Calm.refl (a : App) : Calm a a := ⟨.refl a, fun _ => rfl⟩

theorem Same.calm {a a' : App} (h : Same a a') : Calm a a' where
  persists := persists_of_cells h.router h.worker
    (Nat.le_of_eq (congrArg Array.size h.cells).symm) h.sent h.dropped
  history i := by rw [App.history, App.history, h.cells]

theorem Sound.same {a a' : App} {hand : Nat → Nat} (ha : a.Sound hand) (h : Same a a') :
    a'.Sound hand where
  sharded := by rw [h.router]; exact ha.sharded
  orderly := by rw [h.cells]; exact ha.orderly
  honest side := by rw [h.worker]; exact ha.honest side
  endings i := by
    have htester : a'.testerWorker = a.testerWorker := h.worker .tester
    have hengine : a'.engineWorker = a.engineWorker := h.worker .engine
    rw [endingsFor, h.router, htester, hengine, h.calm.history]
    exact ha.endings i
  inRange := by rw [h.router, h.cells]; exact ha.inRange
  once := by rw [h.router]; exact ha.once
  sent := by rw [h.sent, h.router]; exact ha.sent
  shut side := by rw [h.worker, h.router]; exact ha.shut side

/-- A step of the router by which endings come to hand. -/
theorem Sound.setRouter {a : App} {hand hand' : Nat → Nat} (ha : a.Sound hand)
    {r : Router Nat Side Side} (hsharded : r.table.Sharded)
    (htaken : r.table.taken = a.router.table.taken)
    (hwaiting : ∀ i, hand' i + r.table.waitingFor i = hand i + a.router.table.waitingFor i)
    (hpersists : TablePersists a.router.table r.table) :
    { a with router := r }.Sound hand' where
  sharded := hsharded
  orderly := ha.orderly
  honest := ha.honest
  endings i := by
    have hold := ha.endings i
    have hnew := hwaiting i
    rw [endingsFor] at hold
    change hand' i + (r.table.waitingFor i + queuedIn a.testerWorker.queue i +
      queuedIn a.engineWorker.queue i + (a.history i).countP Visit.isEnd) = r.table.taken.count i
    rw [htaken]
    rw [PendingTable.takenFor] at hold
    omega
  inRange := by rw [htaken]; exact ha.inRange
  once := by rw [htaken]; exact ha.once
  sent := by rw [htaken]; exact ha.sent
  shut side hside := by
    obtain ⟨hclosed, hempty⟩ := ha.shut side hside
    exact ⟨hpersists.closed hclosed, hpersists.empty hclosed hempty⟩

theorem calm_setRouter {a : App} {r : Router Nat Side Side}
    (htable : TablePersists a.router.table r.table)
    (hclosed : a.router.closed = true → r.closed = true)
    (hroutes : a.router.routes = [] → r.routes = []) : Calm a { a with router := r } :=
  ⟨⟨htable, hclosed, hroutes, fun _ => rfl, fun _ _ => rfl, Nat.le_refl _, List.prefix_refl _,
    fun _ => rfl, rfl⟩, fun _ => rfl⟩

@[simp] theorem worker_setWorker (a : App) (side other : Side) (w : Worker Job) :
    (a.setWorker side w).worker other = if side = other then w else a.worker other := by
  cases side <;> cases other <;> rfl

@[simp] theorem router_setWorker (a : App) (side : Side) (w : Worker Job) :
    (a.setWorker side w).router = a.router := by
  cases side <;> rfl

@[simp] theorem cells_setWorker (a : App) (side : Side) (w : Worker Job) :
    (a.setWorker side w).cells = a.cells := by
  cases side <;> rfl

@[simp] theorem sent_setWorker (a : App) (side : Side) (w : Worker Job) :
    (a.setWorker side w).sent = a.sent := by
  cases side <;> rfl

@[simp] theorem dropped_setWorker (a : App) (side : Side) (w : Worker Job) :
    (a.setWorker side w).dropped = a.dropped := by
  cases side <;> rfl

@[simp] theorem history_setWorker (a : App) (side : Side) (w : Worker Job) (i : Nat) :
    (a.setWorker side w).history i = a.history i := by
  rw [history, cells_setWorker]
  rfl

/-- A change of one worker changes the endings by those that are queued there. -/
theorem endingsFor_setWorker (a : App) (side : Side) (w : Worker Job) (i : Nat) :
    (a.setWorker side w).endingsFor i + queuedIn (a.worker side).queue i =
      a.endingsFor i + queuedIn w.queue i := by
  rw [endingsFor, endingsFor, router_setWorker, history_setWorker]
  cases side with
  | tester =>
    simp only [setWorker, worker]
    omega
  | engine =>
    simp only [setWorker, worker]
    omega

/-- A change of one worker alone. -/
theorem Sound.setWorker {a : App} {hand hand' : Nat → Nat} (ha : a.Sound hand) (side : Side)
    {w : Worker Job} (hhonest : ∀ task ∈ w.queue, HonestTask task)
    (hqueue : ∀ i, hand' i + queuedIn w.queue i = hand i + queuedIn (a.worker side).queue i)
    (hshut : w.accepting = false →
      a.router.table.closed = true ∧ a.router.table.entries = []) :
    (a.setWorker side w).Sound hand' where
  sharded := by rw [router_setWorker]; exact ha.sharded
  orderly := by rw [cells_setWorker]; exact ha.orderly
  honest other := by
    rw [worker_setWorker]
    split
    · exact hhonest
    · exact ha.honest other
  endings i := by
    have hold := ha.endings i
    have hnew := hqueue i
    have hmoved := a.endingsFor_setWorker side w i
    rw [router_setWorker]
    omega
  inRange := by rw [router_setWorker, cells_setWorker]; exact ha.inRange
  once := by rw [router_setWorker]; exact ha.once
  sent := by rw [sent_setWorker, router_setWorker]; exact ha.sent
  shut other := by
    rw [worker_setWorker, router_setWorker]
    split
    · exact hshut
    · exact ha.shut other

theorem calm_setWorker {a : App} {side : Side} {w : Worker Job}
    (haccepting : w.accepting = (a.worker side).accepting)
    (hqueue : (a.worker side).accepting = false → w.queue = (a.worker side).queue) :
    Calm a (a.setWorker side w) where
  persists := by
    constructor
    · rw [router_setWorker]
      exact .refl _
    · rw [router_setWorker]
      exact fun hc => hc
    · rw [router_setWorker]
      exact fun hr => hr
    · intro other
      rw [worker_setWorker]
      split
      · next heq => rw [haccepting, heq]
      · rfl
    · intro other hother
      rw [worker_setWorker]
      split
      · next heq =>
        subst heq
        exact hqueue hother
      · rfl
    · exact Nat.le_of_eq (congrArg Array.size (cells_setWorker a side w).symm)
    · exact ⟨[], by rw [List.append_nil, sent_setWorker]⟩
    · exact fun _ => sent_setWorker a side w
    · exact dropped_setWorker a side w
  history := history_setWorker a side w

theorem TablePersists.of_handsOut {t t' : PendingTable Nat Side}
    {deliveries : List (Delivery Nat Side)} (h : t.HandsOut deliveries t') :
    TablePersists t t' where
  closed := h.closed
  taken i hi := by rw [h.taken]; exact hi
  final _ := h.taken
  empty _ hempty := (h.empty hempty).2

/-- A continuation that is there and that no request was taken for. -/
structure Fresh (a : App) (i : Nat) : Prop where
  inRange : i < a.cells.size
  free : i ∉ a.router.table.taken

/-- Nothing has happened yet at a new continuation. -/
theorem history_push (a : App) (handler : Handler) (i : Nat) :
    { a with cells := a.cells.push (.ofHandler handler) }.history i = a.history i := by
  simp only [history, Array.getElem?_push]
  split
  · next heq =>
    rw [heq, Array.getElem?_eq_none (Nat.le_refl _)]
    rfl
  · rfl

theorem calm_push (a : App) (handler : Handler) :
    Calm a { a with cells := a.cells.push (.ofHandler handler) } where
  persists := by
    refine persists_of_cells rfl (fun _ => rfl) ?_ rfl rfl
    change a.cells.size ≤ (a.cells.push _).size
    rw [Array.size_push]
    exact Nat.le_succ _
  history := a.history_push handler

theorem Sound.push {a : App} {hand : Nat → Nat} (ha : a.Sound hand) (handler : Handler) :
    { a with cells := a.cells.push (.ofHandler handler) }.Sound hand where
  sharded := ha.sharded
  orderly i c hfound := by
    change (a.cells.push _)[i]? = some c at hfound
    rw [Array.getElem?_push] at hfound
    split at hfound
    · obtain rfl := Option.some.inj hfound
      exact Continuation.orderly_ofHandler handler
    · exact ha.orderly i c hfound
  honest := ha.honest
  endings i := by
    rw [endingsFor, history_push]
    exact ha.endings i
  inRange i hi := Nat.lt_of_lt_of_le (ha.inRange i hi) (a.calm_push handler).persists.cells
  once := ha.once
  sent := ha.sent
  shut := ha.shut

theorem Sound.fresh_push {a : App} {hand : Nat → Nat} (ha : a.Sound hand) (handler : Handler) :
    { a with cells := a.cells.push (.ofHandler handler) }.Fresh a.cells.size where
  inRange := by
    change a.cells.size < (a.cells.push _).size
    rw [Array.size_push]
    exact Nat.lt_succ_self _
  free hmem := Nat.lt_irrefl _ (ha.inRange _ hmem)

theorem not_closed_of_register {t t' : PendingTable Nat Side} {id : RequestId}
    {request : PendingRequest Nat Side} (h : t.register id request = (.ok (), t')) :
    t.closed = false := by
  rw [PendingTable.register] at h
  split at h
  · cases (Prod.mk.inj h).1
  · next hopen => exact Bool.not_eq_true _ ▸ hopen

/-- The table takes a request for a fresh continuation, and from then on owes it one ending. -/
theorem Sound.take {a : App} {hand : Nat → Nat} (ha : a.Sound hand) {r : Router Nat Side Side}
    {i : Nat} (hfresh : a.Fresh i) (hopen : a.router.table.closed = false)
    (hsharded : r.table.Sharded) (htaken : r.table.taken = a.router.table.taken ++ [i])
    (hwaiting : ∀ k, r.table.waitingFor k =
      a.router.table.waitingFor k + if i = k then 1 else 0) :
    { a with router := r }.Sound hand where
  sharded := hsharded
  orderly := ha.orderly
  honest := ha.honest
  endings k := by
    have hold := ha.endings k
    rw [endingsFor, PendingTable.takenFor] at hold
    change hand k + (r.table.waitingFor k + queuedIn a.testerWorker.queue k +
      queuedIn a.engineWorker.queue k + (a.history k).countP Visit.isEnd) = r.table.taken.count k
    rw [hwaiting, htaken, List.count_append, List.count_singleton]
    simp only [beq_iff_eq]
    omega
  inRange k hk := by
    rw [htaken, List.mem_append, List.mem_singleton] at hk
    rcases hk with hk | rfl
    · exact ha.inRange k hk
    · exact hfresh.inRange
  once := by
    rw [htaken, List.nodup_append]
    refine ⟨ha.once, List.nodup_singleton i, fun k hk other hother heq => ?_⟩
    rw [List.mem_singleton] at hother
    rw [heq, hother] at hk
    exact hfresh.free hk
  sent k hk := by
    rw [htaken]
    exact List.mem_append_left [i] (ha.sent k hk)
  shut side hside := by
    have hclosed := (ha.shut side hside).1
    rw [hopen] at hclosed
    cases hclosed

theorem TablePersists.of_taken {t t' : PendingTable Nat Side} {i : Nat} (hopen : t.closed = false)
    (htaken : t'.taken = t.taken ++ [i]) : TablePersists t t' where
  closed hclosed := by rw [hopen] at hclosed; cases hclosed
  taken k hk := by rw [htaken]; exact List.mem_append_left [i] hk
  final hclosed := by rw [hopen] at hclosed; cases hclosed
  empty hclosed := by rw [hopen] at hclosed; cases hclosed

/-- The router takes a request for a fresh continuation, or it refuses. -/
theorem Sound.accept {a : App} {hand : Nat → Nat} (ha : a.Sound hand)
    (request : PendingRequest Nat Side) (hfresh : a.Fresh request.continuation) :
    { a with router := (a.router.accept request).2 }.Sound hand ∧
      Calm a { a with router := (a.router.accept request).2 } ∧
      ∀ id, (a.router.accept request).1 = .ok id →
        request.continuation ∈ (a.router.accept request).2.table.taken := by
  have hallocated : a.router.table.allocate.2.Sharded := ha.sharded.allocate
  obtain ⟨hsharded, hcase⟩ := hallocated.register a.router.table.allocate.1 request
  simp only [Router.accept]
  cases hregister : a.router.table.allocate.2.register a.router.table.allocate.1 request with
  | mk answer table =>
    rw [hregister] at hsharded hcase
    cases answer with
    | error e =>
      obtain rfl : table = a.router.table.allocate.2 := hcase
      have hpersists : TablePersists a.router.table a.router.table.allocate.2 :=
        ⟨fun hc => hc, fun _ hi => hi, fun _ => rfl, fun _ he => he⟩
      refine ⟨ha.setRouter hallocated rfl (fun _ => rfl) hpersists, ?_, fun id hid => ?_⟩
      · exact calm_setRouter hpersists (fun hc => hc) fun hr => hr
      · cases hid
    | ok u =>
      obtain ⟨htaken, hwaiting⟩ := hcase
      have hopen : a.router.table.closed = false :=
        not_closed_of_register (t := a.router.table.allocate.2) hregister
      refine ⟨ha.take hfresh hopen hsharded htaken hwaiting, ?_, fun _ _ => ?_⟩
      · exact calm_setRouter (.of_taken hopen htaken) (fun hc => hc) fun hr => hr
      · rw [htaken]
        exact List.mem_append_right _ List.mem_cons_self

end Switchboard.App
