import Switchboard.Proofs.Pending.Endings
import Switchboard.Proofs.Programs
/-!
# Conduct of endpoints

An endpoint that is handed a message may use the router before it answers: it may answer the very
command that it was handed, answer others, cancel everything, close the router, and send commands of
its own, whose endpoints may do the same. All that it can do is a tree of operations, each chosen by
what the operations before it have answered.

Every command that is sent carries its own mark beside its continuation, so that the deliveries of
one request can be told from those of another one with the same continuation or the same id.
-/
namespace Switchboard

variable {κ ε η : Type}

/-- A router whose executors queue all deliveries, oldest first. A number is given out to every
command that is sent and every id that is asked for. -/
structure Exchange (κ ε η : Type) where
  router : Router (κ × Nat) ε η
  queued : List (Delivery (κ × Nat) ε) := []
  serial : Nat := 0

namespace Exchange

/-- Programs over an exchange. -/
abbrev Program (κ ε η : Type) := StateM (Exchange κ ε η)

/-- An exchange with some routes and no requests. -/
def ofRoutes (shards : Nat) (routes : List (Loc × η)) : Exchange κ ε η :=
  { router := { routes, table := .ofShards shards } }

/-- The router of an exchange whose endpoints take messages as `deliver` says. -/
def fabric (deliver : η → Message → Program κ ε η (Except Fault Unit)) :
    Fabric (Program κ ε η) (κ × Nat) ε η where
  router := .part (τ := Exchange κ ε η) Exchange.router fun x r => { x with router := r }
  submit d := modify fun x => { x with queued := x.queued ++ [d] }
  forward := deliver

/-- The router for what is not forwarded. -/
def desk : Fabric (Program κ ε η) (κ × Nat) ε η := fabric fun _ _ => return .ok ()

/-- Gives out the next number. -/
def tick : Program κ ε η Nat := modifyGet fun x => (x.serial, { x with serial := x.serial + 1 })

/-- Asks for an id. -/
def allocate : Program κ ε η RequestId := do
  let _ ← tick
  desk.router.step fun r =>
    let (id, table) := r.table.allocate
    (id, { r with table })

/-- Sends a command whose continuation carries the next number. -/
def sendCmd (deliver : η → Message → Program κ ε η (Except Fault Unit)) (p : Outlet ε) (cmd : Cmd)
    (continuation : κ) (streaming : Bool) : Program κ ε η (Except Fault RequestId) := do
  let n ← tick
  p.sendCmd (fabric deliver) cmd (continuation, n) streaming

end Exchange

/-- What an endpoint does before it answers. -/
inductive Conduct (κ ε η : Type) where
  | answer (verdict : Except Fault Unit)
  | look (next : Router (κ × Nat) ε η → Conduct κ ε η)
  | allocate (next : RequestId → Conduct κ ε η)
  | complete (id : RequestId) (result : CmdResult) (next : Bool → Conduct κ ε η)
  | fail (id : RequestId) (fault : Fault) (next : Bool → Conduct κ ε η)
  | cancelAll (reason : String) (next : Nat → Conduct κ ε η)
  | returnResult (result : CmdResult) (next : Except Fault Unit → Conduct κ ε η)
  | addRoute (loc : Loc) (endpoint : η) (next : Except Fault Unit → Conduct κ ε η)
  | close (next : Conduct κ ε η)
  | clearRoutes (next : Conduct κ ε η)
  | sendCmd (p : Outlet ε) (cmd : Cmd) (continuation : κ) (streaming : Bool)
    (deliver : η → Message → Conduct κ ε η) (next : Except Fault RequestId → Conduct κ ε η)
  | send (p : Outlet ε) (msg : Message) (deliver : η → Message → Conduct κ ε η)
    (next : Except Fault Unit → Conduct κ ε η)

namespace Conduct

open Exchange

/-- Does what a conduct says. -/
def run : Conduct κ ε η → Program κ ε η (Except Fault Unit)
  | answer verdict => return verdict
  | look next => do (next (← desk.router.get)).run
  | allocate next => do (next (← Exchange.allocate)).run
  | complete id result next => do (next (← desk.complete id result)).run
  | fail id fault next => do (next (← desk.fail id fault)).run
  | cancelAll reason next => do (next (← desk.cancelAll reason)).run
  | returnResult result next => do (next (← desk.returnResult result)).run
  | addRoute loc endpoint next => do
    (next (← desk.router.step (·.addRoute loc endpoint))).run
  | close next => do
    desk.router.modify Router.close
    next.run
  | clearRoutes next => do
    desk.router.modify Router.clearRoutes
    next.run
  | sendCmd p cmd continuation streaming deliver next => do
    let answer ← Exchange.sendCmd (fun endpoint msg => (deliver endpoint msg).run) p cmd
      continuation streaming
    (next answer).run
  | send p msg deliver next => do
    let answer ← p.send (fabric fun endpoint msg => (deliver endpoint msg).run) msg
    (next answer).run

end Conduct

namespace Exchange

section Run

variable {deliver : η → Message → Program κ ε η (Except Fault Unit)}

theorem run_step {α : Type} (f : Router (κ × Nat) ε η → α × Router (κ × Nat) ε η)
    (x : Exchange κ ε η) : ((fabric deliver).router.step f).run x =
      pure ((f x.router).1, { x with router := (f x.router).2 }) := rfl

theorem run_get (x : Exchange κ ε η) :
    (fabric deliver).router.get.run x = pure (x.router, x) := rfl

/-- Deliveries are queued in the order in which they are handed out. -/
theorem run_submitAll (deliveries : List (Delivery (κ × Nat) ε)) (x : Exchange κ ε η) :
    ((deliveries.forM (fabric deliver).submit).run x) =
      (PUnit.unit, { x with queued := x.queued ++ deliveries }) := by
  induction deliveries generalizing x with
  | nil =>
    rw [List.append_nil]
    rfl
  | cons d deliveries ih =>
    have hrest := ih { x with queued := x.queued ++ [d] }
    rw [List.append_assoc] at hrest
    exact hrest

/-- An operation of the table, with its answer and where its deliveries go. -/
theorem run_onTable {α : Type}
    (op : PendingTable (κ × Nat) ε → α × List (Delivery (κ × Nat) ε) × PendingTable (κ × Nat) ε)
    (x : Exchange κ ε η) :
    ((fabric deliver).onTable op).run x = ((op x.router.table).1,
      { x with
        router := { x.router with table := (op x.router.table).2.2 }
        queued := x.queued ++ (op x.router.table).2.1 }) := by
  change ((op x.router.table).1, (((op x.router.table).2.1.forM (fabric deliver).submit).run _).2) =
    _
  rw [run_submitAll]
  rfl

/-- An exchange that was asked to let a request wait. -/
def enroll (x : Exchange κ ε η) (request : PendingRequest (κ × Nat) ε) : Exchange κ ε η :=
  { x with router := (x.router.accept request).2 }

/-- What comes of forwarding a command that waits under an id. -/
def forwarding (deliver : η → Message → Program κ ε η (Except Fault Unit)) (p : Outlet ε)
    (cmd : Cmd) (id : RequestId) (x : Exchange κ ε η) : Except Fault Unit × Exchange κ ε η :=
  ((fabric deliver).forwardTo (p.destination cmd.dest)
    (.cmd (cmd.stamped id p.src (p.destination cmd.dest)))).run x

/-- What an exchange becomes when forwarding has come to an end. -/
def conclude (id : RequestId) : Except Fault Unit × Exchange κ ε η → Exchange κ ε η
  | (.ok (), x) => x
  | (.error e, x) => ((desk.fail id e).run x).2

theorem settled_fabric (id : RequestId) (forwarded : Except Fault Unit × Exchange κ ε η) :
    (fabric deliver).settled id forwarded = conclude id forwarded := by
  obtain ⟨verdict, x⟩ := forwarded
  cases verdict <;> rfl

variable (deliver) in
/-- A command is sent in one of three ways: nothing happens at all, the request is refused, or it
waits and the command is forwarded. -/
theorem run_sendCmd (p : Outlet ε) (cmd : Cmd) (c : κ × Nat) (streaming : Bool)
    (x : Exchange κ ε η) :
    let request : PendingRequest (κ × Nat) ε :=
      { continuation := c, executor := p.executor, streaming }
    let sent := (p.sendCmd (fabric deliver) cmd c streaming).run x
    (∃ e, sent = (.error e, x)) ∨
      (∃ e, (x.router.accept request).1 = .error e ∧ sent = (.error e, x.enroll request)) ∨
      ∃ id, (x.router.accept request).1 = .ok id ∧
        sent = (.ok id, conclude id (forwarding deliver p cmd id (x.enroll request))) := by
  rcases Fabric.run_sendCmd (fabric deliver) run_get p cmd c streaming x with
    hnothing | hrefused | ⟨id, haccept, hsent⟩
  · exact Or.inl hnothing
  · exact Or.inr (Or.inl hrefused)
  · exact Or.inr (Or.inr ⟨id, haccept, hsent.trans (congrArg _ (settled_fabric id _))⟩)

end Run

/-- The endings of a continuation that wait or are queued. -/
def endingsFor [DecidableEq κ] (x : Exchange κ ε η) (c : κ × Nat) : Nat :=
  x.router.table.waitingFor c + Delivery.endings x.queued c

/-- The invariant of an exchange: all marks in it were given out. -/
structure Sound (x : Exchange κ ε η) : Prop where
  sharded : x.router.table.Sharded
  waiting : ∀ e ∈ x.router.table.entries, e.2.continuation.2 < x.serial
  queued : ∀ d ∈ x.queued, d.continuation.2 < x.serial

theorem sound_ofRoutes (shards : Nat) (routes : List (Loc × η)) :
    (ofRoutes shards routes : Exchange κ ε η).Sound where
  sharded := PendingTable.sharded_ofShards shards
  waiting e he := by simp [ofRoutes] at he
  queued := nofun

variable [DecidableEq κ]

/-- What stays as it is of the requests whose marks were given out before. None of them comes back,
each has as many endings as before, and deliveries to it are its own. Those that have come since
wait under ids that were handed out since, and there are no more of these than numbers. -/
structure Persists (x x' : Exchange κ ε η) : Prop where
  sound : x'.Sound
  serial : x.serial ≤ x'.serial
  endings : ∀ c : κ × Nat, c.2 < x.serial → x'.endingsFor c = x.endingsFor c
  waiting : ∀ e ∈ x'.router.table.entries, e.2.continuation.2 < x.serial →
    e ∈ x.router.table.entries
  queued : ∀ d ∈ x'.queued, d.continuation.2 < x.serial → d ∈ x.queued ∨
    ∃ e ∈ x.router.table.entries, d = e.2.deliver e.1 d.outcome d.outcome.isTerminal
  ids : ∃ n, x.serial + n ≤ x'.serial ∧
    x'.router.table.nextId = x.router.table.nextId + UInt64.ofNat n ∧
    ∀ e ∈ x'.router.table.entries, x.serial ≤ e.2.continuation.2 →
      ∃ i < n, e.1.value = x.router.table.nextId + UInt64.ofNat i

namespace Persists

/-- Nothing waits that did not wait before, and only terminal deliveries of what waited are added. -/
theorem of_serves {x : Exchange κ ε η} (h : x.Sound) {r : Router (κ × Nat) ε η}
    {deliveries : List (Delivery (κ × Nat) ε)}
    (hserves : x.router.table.Serves deliveries r.table) :
    x.Persists { x with router := r, queued := x.queued ++ deliveries } where
  sound :=
    { sharded := hserves.handsOut.sharded
      waiting := fun e he => h.waiting e (hserves.entries he)
      queued := by
        intro d hd
        rcases List.mem_append.mp hd with hd | hd
        · exact h.queued d hd
        · obtain ⟨e, he, heq⟩ := hserves.sources d hd
          rw [heq]
          exact h.waiting e he }
  serial := Nat.le_refl _
  endings c _ := by
    have hwaiting := hserves.handsOut.waiting c
    change r.table.waitingFor c + Delivery.endings (x.queued ++ deliveries) c =
      x.router.table.waitingFor c + Delivery.endings x.queued c
    rw [← hwaiting, Delivery.endings, List.countP_append]
    simp only [Delivery.endings]
    omega
  waiting e he _ := hserves.entries he
  queued d hd _ := by
    rcases List.mem_append.mp hd with hd | hd
    · exact Or.inl hd
    · obtain ⟨e, he, heq⟩ := hserves.sources d hd
      rw [hserves.handsOut.terminal d hd] at heq
      exact Or.inr ⟨e, he, heq⟩
  ids := by
    refine ⟨0, Nat.le_refl _, ?_, ?_⟩
    · rw [hserves.nextId]
      simp
    · intro e he hnew
      exact absurd (h.waiting e (hserves.entries he)) (Nat.not_lt.mpr hnew)

/-- Nothing happens to the table. -/
theorem of_table {x : Exchange κ ε η} (h : x.Sound) {r : Router (κ × Nat) ε η}
    (htable : r.table = x.router.table) : x.Persists { x with router := r } := by
  have hserves : x.router.table.Serves [] r.table := by
    rw [htable]
    exact h.sharded.serves_nil
  have hpersists := of_serves h hserves
  rw [List.append_nil] at hpersists
  exact hpersists

theorem refl {x : Exchange κ ε η} (h : x.Sound) : x.Persists x := of_table h rfl

theorem trans {x x' x'' : Exchange κ ε η} (h : x.Persists x') (h' : x'.Persists x'') :
    x.Persists x'' where
  sound := h'.sound
  serial := Nat.le_trans h.serial h'.serial
  endings c hc := by rw [h'.endings c (Nat.lt_of_lt_of_le hc h.serial), h.endings c hc]
  waiting e he hold := h.waiting e (h'.waiting e he (Nat.lt_of_lt_of_le hold h.serial)) hold
  queued d hd hold := by
    rcases h'.queued d hd (Nat.lt_of_lt_of_le hold h.serial) with hbefore | ⟨e, he, heq⟩
    · exact h.queued d hbefore hold
    · refine Or.inr ⟨e, h.waiting e he ?_, heq⟩
      rw [heq] at hold
      exact hold
  ids := by
    obtain ⟨n, hserial, hnext, hids⟩ := h.ids
    obtain ⟨n', hserial', hnext', hids'⟩ := h'.ids
    refine ⟨n + n', by omega, ?_, ?_⟩
    · rw [hnext', hnext, UInt64.ofNat_add, UInt64.add_assoc]
    · intro e he hnew
      rcases Nat.lt_or_ge e.2.continuation.2 x'.serial with hold | hnewer
      · obtain ⟨i, hi, heq⟩ := hids e (h'.waiting e he hold) hnew
        exact ⟨i, by omega, heq⟩
      · obtain ⟨i, hi, heq⟩ := hids' e he hnewer
        refine ⟨n + i, by omega, ?_⟩
        rw [heq, hnext, UInt64.ofNat_add, UInt64.add_assoc]

end Persists

/-- A program under which old requests persist. -/
def Keeps (α : Type) (p : Program κ ε η α) : Prop :=
  ∀ x : Exchange κ ε η, x.Sound → x.Persists (p.run x).2

theorem composes_keeps : Composes (m := Program κ ε η) Keeps where
  pure _ _ h := .refl h
  bind hp hf x h := (hp x h).trans (hf _ _ (hp x h).sound)

variable {deliver : η → Message → Program κ ε η (Except Fault Unit)}

theorem keeps_onTable {α : Type}
    {op : PendingTable (κ × Nat) ε → α × List (Delivery (κ × Nat) ε) × PendingTable (κ × Nat) ε}
    (hop : ∀ t : PendingTable (κ × Nat) ε, t.Sharded → t.Serves (op t).2.1 (op t).2.2) :
    Keeps α ((fabric deliver).onTable op) := by
  intro x h
  rw [run_onTable]
  exact .of_serves h (hop _ h.sharded)

theorem fits_fabric (hdeliver : ∀ endpoint msg, Keeps _ (deliver endpoint msg)) :
    Composes.Fits Keeps (fabric deliver) where
  get _ h := .refl h
  complete id result := keeps_onTable fun _ ht => ht.serves_complete id result
  fail id fault := keeps_onTable fun _ ht => ht.serves_fail id fault
  forward := hdeliver

theorem fits_desk : Composes.Fits Keeps (desk : Fabric (Program κ ε η) _ ε η) :=
  fits_fabric fun _ _ => composes_keeps.pure _

/-- What is done to the routes does nothing to requests. -/
theorem keeps_routes {α : Type} {f : Router (κ × Nat) ε η → α × Router (κ × Nat) ε η}
    (hf : ∀ r, (f r).2.table = r.table) : Keeps α (desk.router.step f) :=
  fun x h => .of_table h (hf x.router)

theorem keeps_tick : Keeps _ (tick : Program κ ε η Nat) := by
  intro x h
  exact
    { sound :=
        { sharded := h.sharded
          waiting := fun e he => Nat.lt_succ_of_lt (h.waiting e he)
          queued := fun d hd => Nat.lt_succ_of_lt (h.queued d hd) }
      serial := Nat.le_succ _
      endings := fun _ _ => rfl
      waiting := fun _ he _ => he
      queued := fun _ hd _ => Or.inl hd
      ids := ⟨0, Nat.le_succ _, (UInt64.add_zero _).symm,
        fun e he hnew => absurd (h.waiting e he) (Nat.not_lt.mpr hnew)⟩ }

theorem keeps_allocate : Keeps _ (allocate : Program κ ε η RequestId) := by
  intro x h
  exact
    { sound :=
        { sharded := h.sharded.allocate
          waiting := fun e he => Nat.lt_succ_of_lt (h.waiting e he)
          queued := fun d hd => Nat.lt_succ_of_lt (h.queued d hd) }
      serial := Nat.le_succ _
      endings := fun _ _ => rfl
      waiting := fun _ he _ => he
      queued := fun _ hd _ => Or.inl hd
      ids := ⟨1, Nat.le_refl _, rfl,
        fun e he hnew => absurd (h.waiting e he) (Nat.not_lt.mpr hnew)⟩ }

/-- A request that is asked to wait with the next number touches no other request. -/
theorem persists_enroll {x : Exchange κ ε η} (h : x.Sound) {request : PendingRequest (κ × Nat) ε}
    (hmark : request.continuation.2 = x.serial) :
    x.Persists ({ x with serial := x.serial + 1 }.enroll request) := by
  rcases Router.accept_cases h.sharded request with ⟨id, -, haccepts⟩ | ⟨e, -, htable⟩
  · have hmem (e) (he : e ∈ (x.router.accept request).2.table.entries) :
        e = (id, request) ∨ e ∈ x.router.table.entries :=
      List.mem_cons.mp (haccepts.entries.mem_iff.mp he)
    refine
      { sound :=
          { sharded := haccepts.sharded
            waiting := ?_
            queued := fun d hd => Nat.lt_succ_of_lt (h.queued d hd) }
        serial := Nat.le_succ _
        endings := ?_
        waiting := ?_
        queued := fun _ hd _ => Or.inl hd
        ids := ⟨1, Nat.le_refl _, haccepts.nextId, ?_⟩ }
    · intro e he
      rcases hmem e he with rfl | hold
      · exact Nat.lt_succ_of_le (Nat.le_of_eq hmark)
      · exact Nat.lt_succ_of_lt (h.waiting e hold)
    · intro c hc
      have hother : request.continuation ≠ c := by
        rintro rfl
        exact absurd hc (Nat.not_lt.mpr (Nat.le_of_eq hmark.symm))
      change (x.router.accept request).2.table.waitingFor c + _ = _
      rw [PendingTable.waitingFor, haccepts.entries.countP_eq, List.countP_cons]
      simp [hother, endingsFor, PendingTable.waitingFor, enroll]
    · intro e he hold
      rcases hmem e he with rfl | hmem
      · exact absurd hold (Nat.not_lt.mpr (Nat.le_of_eq hmark.symm))
      · exact hmem
    · intro e he hnew
      rcases hmem e he with rfl | hmem
      · exact ⟨0, Nat.one_pos, by rw [haccepts.allocated]; simp⟩
      · exact absurd (h.waiting e hmem) (Nat.not_lt.mpr hnew)
  · have hasked := keeps_allocate x h
    rw [enroll, htable]
    exact hasked

/-- Nothing but one ending comes of a command that cannot be forwarded. -/
theorem persists_conclude (id : RequestId) {forwarded : Except Fault Unit × Exchange κ ε η}
    (h : forwarded.2.Sound) : forwarded.2.Persists (conclude id forwarded) := by
  obtain ⟨verdict, x⟩ := forwarded
  cases verdict with
  | ok _ => exact .refl h
  | error e => exact fits_desk.fail id e x h

theorem persists_forwarding (hdeliver : ∀ endpoint msg, Keeps _ (deliver endpoint msg))
    (p : Outlet ε) (cmd : Cmd) (id : RequestId) {x : Exchange κ ε η} (h : x.Sound) :
    x.Persists (forwarding deliver p cmd id x).2 :=
  composes_keeps.forwardTo (fits_fabric hdeliver).toReaches _ _ x h

/-- A command that is sent touches no request from before, if endpoints do not. -/
theorem keeps_sendCmd (hdeliver : ∀ endpoint msg, Keeps _ (deliver endpoint msg)) (p : Outlet ε)
    (cmd : Cmd) (continuation : κ) (streaming : Bool) :
    Keeps _ (sendCmd deliver p cmd continuation streaming) := by
  intro x h
  have hrun := run_sendCmd deliver p cmd (continuation, x.serial) streaming
    { x with serial := x.serial + 1 }
  have hsent : (sendCmd deliver p cmd continuation streaming).run x =
    (p.sendCmd (fabric deliver) cmd (continuation, x.serial) streaming).run
      { x with serial := x.serial + 1 } := rfl
  rw [hsent]
  have henrolled : x.Persists ({ x with serial := x.serial + 1 }.enroll
      ⟨(continuation, x.serial), p.executor, streaming⟩) := persists_enroll h rfl
  rcases hrun with ⟨e, hrun⟩ | ⟨e, -, hrun⟩ | ⟨id, -, hrun⟩
  · rw [hrun]
    exact keeps_tick x h
  · rw [hrun]
    exact henrolled
  · rw [hrun]
    have hforwarded := persists_forwarding hdeliver p cmd id henrolled.sound
    exact (henrolled.trans hforwarded).trans (persists_conclude id hforwarded.sound)

end Exchange

namespace Conduct

open Exchange

variable [DecidableEq κ]

/-- Whatever an endpoint does touches no request from before but by ending it. -/
theorem keeps_run (conduct : Conduct κ ε η) : Keeps _ conduct.run := by
  have hK : Composes (m := Program κ ε η) Keeps := composes_keeps
  have hdesk : Composes.Fits (m := Program κ ε η) (κ := κ × Nat) (ε := ε) (η := η) Keeps desk :=
    fits_desk
  induction conduct with
  | answer verdict => exact hK.pure verdict
  | look next ih => exact hK.bind hdesk.get ih
  | allocate next ih => exact hK.bind keeps_allocate ih
  | complete id result next ih => exact hK.bind (hdesk.complete id result) ih
  | fail id fault next ih => exact hK.bind (hdesk.fail id fault) ih
  | cancelAll reason next ih =>
    exact hK.bind (keeps_onTable fun t _ => t.serves_cancelAll reason) ih
  | returnResult result next ih => exact hK.bind (hK.returnResult hdesk.complete result) ih
  | addRoute loc endpoint next ih =>
    refine hK.bind (keeps_routes fun r => ?_) ih
    rw [Router.addRoute]
    split <;> rfl
  | close next ih => exact hK.bind (keeps_routes fun _ => rfl) fun _ => ih
  | clearRoutes next ih => exact hK.bind (keeps_routes fun _ => rfl) fun _ => ih
  | sendCmd p cmd continuation streaming deliver next ihdeliver ih =>
    exact hK.bind (keeps_sendCmd ihdeliver p cmd continuation streaming) ih
  | send p msg deliver next ihdeliver ih =>
    exact hK.bind (hK.send (fits_fabric ihdeliver).toReaches p msg) ih

end Conduct
end Switchboard
