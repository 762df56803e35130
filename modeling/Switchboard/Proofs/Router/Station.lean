import Switchboard.Pending.History
import Switchboard.Proofs.Pending.Shards
import Switchboard.Proofs.Programs
/-!
# Commands among quiet neighbours

A router is among neighbours: executors that queue a delivery or refuse it, and endpoints that take
a message or refuse it. They have a state of their own and leave the router alone while they decide.

A command that is sent is refused for the first of four reasons, and leaves at most an id used up. A
command that is not refused reaches its endpoint once, stamped, and waits. If it cannot be forwarded,
the table is as it was but for its counters, and the one thing handed out is the fault.
-/
namespace Switchboard

variable {κ ε η τ : Type}

/-- How executors and endpoints answer. -/
structure Neighbours (κ ε η τ : Type) where
  take : Delivery κ ε → τ → Except Fault Unit × τ
  receive : η → Message → τ → Except Fault Unit × τ

/-- A router, the state of its neighbours, and all that has reached them, oldest first: deliveries
with the answers of the executors, and messages. -/
structure Station (κ ε η τ : Type) where
  router : Router κ ε η
  outside : τ
  handed : List (Delivery κ ε × Except Fault Unit) := []
  received : List (η × Message) := []

namespace Station

/-- Replaces the table of the router. -/
def withTable (x : Station κ ε η τ) (table : PendingTable κ ε) : Station κ ε η τ :=
  { x with router := { x.router with table } }

/-- Hands a delivery to its executor. -/
def handOut (n : Neighbours κ ε η τ) (x : Station κ ε η τ) (d : Delivery κ ε) : Station κ ε η τ :=
  { x with
    outside := (n.take d x.outside).2
    handed := x.handed ++ [(d, (n.take d x.outside).1)] }

/-- Hands a message to an endpoint. -/
def pass (n : Neighbours κ ε η τ) (endpoint : η) (msg : Message) (x : Station κ ε η τ) :
    Except Fault Unit × Station κ ε η τ :=
  ((n.receive endpoint msg x.outside).1,
    { x with
      outside := (n.receive endpoint msg x.outside).2
      received := x.received ++ [(endpoint, msg)] })

/-- A delivery that was handed out, if its executor has queued it. -/
def queued? : Delivery κ ε × Except Fault Unit → Option (Delivery κ ε)
  | (d, .ok ()) => some d
  | (_, .error _) => none

/-- The deliveries that an executor has queued, oldest first. -/
def queue [DecidableEq ε] (x : Station κ ε η τ) (executor : ε) : List (Delivery κ ε) :=
  Delivery.queuedOn executor (x.handed.filterMap queued?)

@[simp] theorem table_withTable (x : Station κ ε η τ) (table : PendingTable κ ε) :
    (x.withTable table).router.table = table := rfl

@[simp] theorem outside_withTable (x : Station κ ε η τ) (table : PendingTable κ ε) :
    (x.withTable table).outside = x.outside := rfl

@[simp] theorem router_foldl_handOut (n : Neighbours κ ε η τ) (deliveries : List (Delivery κ ε))
    (x : Station κ ε η τ) : (deliveries.foldl (handOut n) x).router = x.router := by
  induction deliveries generalizing x with
  | nil => rfl
  | cons d deliveries ih => simp [ih, handOut]

@[simp] theorem received_foldl_handOut (n : Neighbours κ ε η τ) (deliveries : List (Delivery κ ε))
    (x : Station κ ε η τ) : (deliveries.foldl (handOut n) x).received = x.received := by
  induction deliveries generalizing x with
  | nil => rfl
  | cons d deliveries ih => simp [ih, handOut]

/-- Whatever executors answer, all deliveries reach them, after those before and in their order. -/
theorem exists_handed_foldl (n : Neighbours κ ε η τ) (deliveries : List (Delivery κ ε))
    (x : Station κ ε η τ) :
    ∃ news, (deliveries.foldl (handOut n) x).handed = x.handed ++ news ∧
      news.map Prod.fst = deliveries ∧
      ∀ h ∈ news, ∃ outside, h.2 = (n.take h.1 outside).1 := by
  induction deliveries generalizing x with
  | nil => exact ⟨[], by simp, rfl, by simp⟩
  | cons d deliveries ih =>
    obtain ⟨news, hhanded, hnews, hanswers⟩ := ih (x.handOut n d)
    refine ⟨(d, (n.take d x.outside).1) :: news, ?_, by simp [hnews], ?_⟩
    · rw [List.foldl_cons, hhanded]
      simp [handOut]
    · intro h hmem
      rcases List.mem_cons.mp hmem with rfl | hmem
      · exact ⟨x.outside, rfl⟩
      · exact hanswers h hmem

end Station

/-- The router of a station. -/
def Neighbours.fabric (n : Neighbours κ ε η τ) : Fabric (StateM (Station κ ε η τ)) κ ε η where
  router := .part (τ := Station κ ε η τ) Station.router fun x r => { x with router := r }
  submit d := modify fun x => x.handOut n d
  forward endpoint msg := modifyGet (Station.pass n endpoint msg)

namespace Neighbours

variable (n : Neighbours κ ε η τ)

theorem run_get (x : Station κ ε η τ) : n.fabric.router.get.run x = (x.router, x) := rfl

theorem run_submitAll (deliveries : List (Delivery κ ε)) (x : Station κ ε η τ) :
    (deliveries.forM n.fabric.submit).run x =
      (PUnit.unit, deliveries.foldl (Station.handOut n) x) := by
  induction deliveries generalizing x with
  | nil => rfl
  | cons d deliveries ih => exact ih (x.handOut n d)

/-- An operation of the table changes the table and hands its deliveries out. -/
theorem run_onTable {α : Type}
    (op : PendingTable κ ε → α × List (Delivery κ ε) × PendingTable κ ε) (x : Station κ ε η τ) :
    (n.fabric.onTable op).run x = ((op x.router.table).1,
      (op x.router.table).2.1.foldl (Station.handOut n) (x.withTable (op x.router.table).2.2)) := by
  change ((op x.router.table).1,
    (((op x.router.table).2.1.forM n.fabric.submit).run (x.withTable _)).2) = _
  rw [run_submitAll]

/-- A message that is forwarded reaches the endpoint of its destination, if there is one. -/
theorem run_forwardTo (dest : Loc) (msg : Message) (x : Station κ ε η τ) :
    (n.fabric.forwardTo dest msg).run x =
      match x.router.endpoint? dest with
      | none => (.error (.dispatchFailure ("no route to " ++ dest.text)), x)
      | some endpoint => x.pass n endpoint msg := by
  rw [Fabric.forwardTo, n.fabric.run_get_bind n.run_get, Router.resolve]
  cases x.router.endpoint? dest with
  | none => rfl
  | some endpoint => rfl

end Neighbours

namespace PendingTable

variable {t : PendingTable κ ε} {id : RequestId} {request : PendingRequest κ ε}

/-- A table that has taken one more request, under the id that it handed out for it. -/
structure Gains (t : PendingTable κ ε) (id : RequestId) (request : PendingRequest κ ε)
    (t' : PendingTable κ ε) : Prop where
  find? : ∀ other, t'.find? other = if other = id then some request else t.find? other
  size : t'.size = t.size + 1
  stats : t'.stats = { t.stats with registered := t.stats.registered + 1 }
  closed : t'.closed = t.closed
  nextId : t'.nextId = t.nextId + 1

/-- A table that has taken a request, failed it, and has nothing left of it but in its counters. -/
def passedOver (t : PendingTable κ ε) (continuation : κ) : PendingTable κ ε :=
  { t with
    nextId := t.nextId + 1
    taken := t.taken ++ [continuation]
    stats :=
      { t.stats with registered := t.stats.registered + 1, failed := t.stats.failed + 1 } }

theorem shardOf_modifyShard (t : PendingTable κ ε) (id other : RequestId)
    (f : Shard κ ε → Shard κ ε) :
    (t.modifyShard id f).shardOf other =
      if t.indexOf id = t.indexOf other then f (t.shardOf other) else t.shardOf other := by
  simp only [shardOf, indexOf_modifyShard]
  simp [modifyShard, Array.getElem_modify]

/-- A request that is added is found under its id, and all others are found as before. -/
theorem find?_add (t : PendingTable κ ε) (id : RequestId) (request : PendingRequest κ ε)
    (other : RequestId) :
    (t.modifyShard id ((id, request) :: ·)).find? other =
      if other = id then some request else t.find? other := by
  rw [PendingTable.find?, shardOf_modifyShard]
  by_cases heq : other = id
  · simp [heq, Shard.find?]
  · by_cases hindex : t.indexOf id = t.indexOf other
    · simp [hindex, heq, Shard.find?, PendingTable.find?, Ne.symm heq]
    · simp [hindex, heq, PendingTable.find?]

theorem length_flatten_modify {α : Type} (l : List (List α)) (a : α) {i : Nat}
    (h : i < l.length) : ((l.modify i (a :: ·)).flatten).length = l.flatten.length + 1 := by
  induction l generalizing i with
  | nil => cases h
  | cons first rest ih =>
    cases i with
    | zero => simp
    | succ i =>
      have hrest := ih (Nat.lt_of_succ_lt_succ h)
      simp only [List.modify_succ_cons, List.flatten_cons, List.length_append, hrest]
      omega

theorem size_add (t : PendingTable κ ε) (id : RequestId) (request : PendingRequest κ ε) :
    (t.modifyShard id ((id, request) :: ·)).size = t.size + 1 := by
  simp only [size, modifyShard, Array.toList_modify]
  exact length_flatten_modify _ _ (by simpa using t.indexOf_lt id)

/-- Whoever is taken out again leaves no trace. -/
theorem erase_add (h : t.find? id = none) (request : PendingRequest κ ε) :
    (t.modifyShard id ((id, request) :: ·)).erase id = t := by
  have hkeeps : Shard.without (t.shardOf id) id = t.shardOf id := by
    simp only [PendingTable.find?, Shard.find?, Option.map_eq_none_iff, List.find?_eq_none] at h
    exact List.filter_eq_self.mpr fun e he => by simpa using h e he
  have hshards : ((t.modifyShard id ((id, request) :: ·)).erase id).shards = t.shards := by
    apply Array.ext
    · simp [PendingTable.erase, modifyShard]
    · intro i hi hi'
      simp only [PendingTable.erase, modifyShard, Array.getElem_modify, indexOf, Array.size_modify]
      by_cases hindex : id.value.toNat % t.shards.size = i
      · subst hindex
        simpa [Shard.without, shardOf, indexOf] using hkeeps
      · simp [hindex]
  rw [show t = { t with shards := t.shards, shards_nonempty := t.shards_nonempty } from rfl]
  simp only [PendingTable.erase, modifyShard] at hshards ⊢
  simp [hshards]

end PendingTable

namespace Router

/-- Why a router refuses a command, if it does: the first reason that there is. -/
def refusal? (r : Router κ ε η) (cmd : Cmd) : Option Fault :=
  if cmd.name = "" then some (.invalidArgument "invalid cmd: name is required")
  else if r.closed then some (.dispatchFailure "router is closed")
  else if r.table.closed then some (.dispatchFailure "pending table is closed")
  else if r.table.contains ⟨r.table.nextId⟩ then
    some (.invalidArgument (RequestId.text ⟨r.table.nextId⟩ ++ " is already pending"))
  else none

/-- Whether a command is refused before an id is asked for. -/
def refusesOutright (r : Router κ ε η) (cmd : Cmd) : Prop := cmd.name = "" ∨ r.closed = true

instance (r : Router κ ε η) (cmd : Cmd) : Decidable (r.refusesOutright cmd) :=
  inferInstanceAs (Decidable (cmd.name = "" ∨ r.closed = true))

/-- Why an open router refuses a command. -/
theorem refusal?_of_not_outright {r : Router κ ε η} {cmd : Cmd} (h : ¬ r.refusesOutright cmd) :
    r.refusal? cmd =
      if r.table.closed then some (.dispatchFailure "pending table is closed")
      else if r.table.contains ⟨r.table.nextId⟩ then
        some (.invalidArgument (RequestId.text ⟨r.table.nextId⟩ ++ " is already pending"))
      else none := by
  obtain ⟨hname, hopen⟩ := not_or.mp h
  simp [refusal?, hname, hopen]

theorem not_contains_of_refusal? {r : Router κ ε η} {cmd : Cmd} (h : r.refusal? cmd = none) :
    r.table.contains ⟨r.table.nextId⟩ = false := by
  cases hcontains : r.table.contains ⟨r.table.nextId⟩ with
  | false => rfl
  | true =>
    rw [refusal?, hcontains] at h
    split_ifs at h with _ _ _ hfree
    exact absurd rfl hfree

/-- The table with a request that it has taken under the next id. -/
def taking (r : Router κ ε η) (request : PendingRequest κ ε) : PendingTable κ ε :=
  ((r.table.allocate.2.modifyShard ⟨r.table.nextId⟩ ((⟨r.table.nextId⟩, request) :: ·)).record
    request.continuation).count fun s => { s with registered := s.registered + 1 }

/-- An id is used up, and then the request is refused or taken. -/
theorem accept_eq {r : Router κ ε η} {cmd : Cmd} (h : ¬ r.refusesOutright cmd)
    (request : PendingRequest κ ε) :
    r.accept request =
      match r.refusal? cmd with
      | some e => (.error e, { r with table := r.table.allocate.2 })
      | none => (.ok ⟨r.table.nextId⟩, { r with table := r.taking request }) := by
  have hfind : r.table.allocate.2.contains ⟨r.table.nextId⟩ =
      r.table.contains ⟨r.table.nextId⟩ := rfl
  have hshut : r.table.allocate.2.closed = r.table.closed := rfl
  have haccept : r.accept request =
      ((r.table.allocate.2.register ⟨r.table.nextId⟩ request).1.map fun _ => ⟨r.table.nextId⟩,
        { r with table := (r.table.allocate.2.register ⟨r.table.nextId⟩ request).2 }) := rfl
  rw [haccept, refusal?_of_not_outright h, PendingTable.register, hshut, hfind]
  cases r.table.closed with
  | true => rfl
  | false =>
    cases r.table.contains ⟨r.table.nextId⟩ with
    | true => rfl
    | false => rfl

end Router

namespace PendingTable

/-- An id that waits is no new one. -/
theorem gains_taking {r : Router κ ε η} {request : PendingRequest κ ε} :
    r.table.Gains ⟨r.table.nextId⟩ request (r.taking request) where
  find? := find?_add r.table.allocate.2 _ request
  size := size_add r.table.allocate.2 _ request
  stats := rfl
  closed := rfl
  nextId := rfl

/-- A request that was just taken is failed, and nothing is left of it but in the counters. -/
theorem fail_taking {r : Router κ ε η} {request : PendingRequest κ ε}
    (h : r.table.contains ⟨r.table.nextId⟩ = false) (e : Fault) :
    (r.taking request).fail ⟨r.table.nextId⟩ e =
      (true, [request.deliver ⟨r.table.nextId⟩ (.error e) true],
        r.table.passedOver request.continuation) := by
  have hnone : r.table.allocate.2.find? ⟨r.table.nextId⟩ = none :=
    Option.isSome_eq_false_iff.mp h |> Option.isNone_iff_eq_none.mp
  have hgains : r.table.Gains ⟨r.table.nextId⟩ request (r.taking request) := gains_taking
  have hfound : (r.taking request).find? ⟨r.table.nextId⟩ = some request := by
    simpa using hgains.find? ⟨r.table.nextId⟩
  rw [fail_of_some hfound]
  have herase : (r.taking request).erase ⟨r.table.nextId⟩ =
      (r.table.allocate.2.record request.continuation).count fun s =>
        { s with registered := s.registered + 1 } :=
    congrArg (fun t => (t.record request.continuation).count fun s =>
      { s with registered := s.registered + 1 }) (erase_add hnone request)
  rw [herase]
  rfl

end PendingTable

/-- What is told of a message without a name. -/
theorem Fault.ofInvalid_nameMissing (kind : Kind) :
    ofInvalid ⟨kind, .nameMissing⟩ =
      .invalidArgument ("invalid " ++ kind.text ++ ": name is required") := by
  simp [ofInvalid, InvalidMessage.text, Defect.text, String.append_assoc]

namespace Cmd

theorem validate_eq (cmd : Cmd) :
    cmd.validate = if cmd.name = "" then .error ⟨.cmd, .nameMissing⟩ else .ok () := rfl

theorem ofInvalid_nameMissing :
    Fault.ofInvalid ⟨.cmd, .nameMissing⟩ = .invalidArgument "invalid cmd: name is required" :=
  Fault.ofInvalid_nameMissing .cmd

end Cmd

namespace Neighbours

variable (n : Neighbours κ ε η τ)

variable {p : Outlet ε} {cmd : Cmd} {continuation : κ} {streaming : Bool} {x : Station κ ε η τ}

/-- Without a name, or when the router is closed, nothing happens at all. -/
theorem run_sendCmd_of_outright (h : x.router.refusesOutright cmd) :
    ∃ e, x.router.refusal? cmd = some e ∧
      (p.sendCmd n.fabric cmd continuation streaming).run x = (.error e, x) := by
  rw [Outlet.sendCmd, Cmd.validate_eq]
  by_cases hname : cmd.name = ""
  · refine ⟨_, if_pos hname, ?_⟩
    simp only [hname, if_true, Cmd.ofInvalid_nameMissing]
    rfl
  · have hclosed : x.router.closed = true := h.resolve_left hname
    refine ⟨.dispatchFailure "router is closed", by simp [Router.refusal?, hname, hclosed], ?_⟩
    simp only [hname, if_false]
    rw [n.fabric.run_get_bind n.run_get, Router.ensureOpen, if_pos hclosed]
    rfl

/-- An open router is asked to let the command wait, and then the command is forwarded. -/
theorem run_sendCmd_of_not_outright (h : ¬ x.router.refusesOutright cmd) :
    (p.sendCmd n.fabric cmd continuation streaming).run x =
      match x.router.accept { continuation, executor := p.executor, streaming } with
      | (.error e, router) => (.error e, { x with router })
      | (.ok id, router) => (.ok id, n.fabric.settled id
          ((n.fabric.forwardTo (p.destination cmd.dest)
            (.cmd (cmd.stamped id p.src (p.destination cmd.dest)))).run { x with router })) := by
  obtain ⟨hname, hopen⟩ := not_or.mp h
  rw [Outlet.sendCmd, Cmd.validate_eq, if_neg hname]
  dsimp only
  rw [n.fabric.run_get_bind n.run_get, Router.ensureOpen, if_neg hopen]
  dsimp only
  rw [StateT.run_bind]
  generalize haccept : x.router.accept { continuation, executor := p.executor, streaming } =
    accepted
  obtain ⟨answer, router⟩ := accepted
  have hstep : (n.fabric.router.step
      (·.accept { continuation, executor := p.executor, streaming })).run x =
        (answer, { x with router }) := by
    change ((x.router.accept _).1, { x with router := (x.router.accept _).2 }) = _
    rw [haccept]
  rw [hstep]
  cases answer with
  | error e => rfl
  | ok id =>
    dsimp only
    change StateT.run (n.fabric.forwardTo _ _ >>= _) { x with router } = _
    rw [StateT.run_bind]
    generalize (n.fabric.forwardTo (p.destination cmd.dest)
      (.cmd (cmd.stamped id p.src (p.destination cmd.dest)))).run { x with router } = forwarded
    obtain ⟨verdict, y⟩ := forwarded
    cases verdict with
    | error e => rfl
    | ok _ => rfl

/-- A command that is refused leaves everything alone, or uses an id up. -/
theorem run_sendCmd_of_refused {e : Fault} (h : x.router.refusal? cmd = some e) :
    (p.sendCmd n.fabric cmd continuation streaming).run x =
      (.error e, if x.router.refusesOutright cmd then x
        else x.withTable x.router.table.allocate.2) := by
  by_cases houtright : x.router.refusesOutright cmd
  · obtain ⟨e', hreason, hsent⟩ : ∃ e, x.router.refusal? cmd = some e ∧
        (p.sendCmd n.fabric cmd continuation streaming).run x = (.error e, x) :=
      n.run_sendCmd_of_outright houtright
    obtain rfl : e' = e := Option.some.inj (hreason.symm.trans h)
    rw [hsent, if_pos houtright]
  · rw [n.run_sendCmd_of_not_outright houtright, Router.accept_eq houtright, h, if_neg houtright]
    rfl

/-- A command that is not refused waits under the next id and is forwarded. -/
theorem run_sendCmd_of_accepted (h : x.router.refusal? cmd = none) :
    let id : RequestId := ⟨x.router.table.nextId⟩
    let dest := p.destination cmd.dest
    let waiting := x.withTable
      (x.router.taking { continuation, executor := p.executor, streaming })
    (p.sendCmd n.fabric cmd continuation streaming).run x =
      (.ok id, n.fabric.settled id <|
        match x.router.endpoint? dest with
        | none => (.error (.dispatchFailure ("no route to " ++ dest.text)), waiting)
        | some endpoint => waiting.pass n endpoint (.cmd (cmd.stamped id p.src dest))) := by
  have houtright : ¬ x.router.refusesOutright cmd := by
    intro houtright
    obtain ⟨e, hreason, -⟩ : ∃ e, x.router.refusal? cmd = some e ∧
        (p.sendCmd n.fabric cmd continuation streaming).run x = (.error e, x) :=
      n.run_sendCmd_of_outright houtright
    simp [h] at hreason
  rw [n.run_sendCmd_of_not_outright houtright, Router.accept_eq houtright, h]
  dsimp only
  rw [run_forwardTo]
  rfl

/-- A request that could not be forwarded is passed over, whatever the endpoint has done since. -/
theorem settled_taking (h : x.router.refusal? cmd = none) (request : PendingRequest κ ε) (e : Fault)
    {y : Station κ ε η τ} (hy : y.router = (x.withTable (x.router.taking request)).router) :
    n.fabric.settled ⟨x.router.table.nextId⟩ (.error e, y) =
      (y.withTable (x.router.table.passedOver request.continuation)).handOut n
        (request.deliver ⟨x.router.table.nextId⟩ (.error e) true) := by
  have htable : y.router.table = x.router.taking request := by rw [hy, Station.table_withTable]
  rw [Fabric.settled, Fabric.fail, run_onTable, htable,
    PendingTable.fail_taking (Router.not_contains_of_refusal? h)]
  rfl

variable (p cmd continuation streaming x) in
/-- Sending a command to neighbours that leave the router alone, whatever the router has come to.

The command is refused if and only if there is a reason, and the first one is told. Then no endpoint
and no executor hears of it, and nothing changes but that an id is used up, if the command has a name
and the router is open. A command that is not refused is told its id and counted. It goes to the
endpoint of its destination, else of the default one, once: it is what it was but for its id, sender
and destination. If the endpoint takes it, the request waits and nothing is handed out. If there is no
endpoint, or it refuses, nothing is left of the request but in the counters, and its executor is handed
one ending, the fault. -/
theorem sendCmd_decides :
    let sent := (p.sendCmd n.fabric cmd continuation streaming).run x
    let id : RequestId := ⟨x.router.table.nextId⟩
    let request : PendingRequest κ ε := { continuation, executor := p.executor, streaming }
    let dest := cmd.dest.getD p.defaultDest
    let stamped := { cmd with requestId := some id, src := some p.src, dest := some dest }
    let passedOver := x.withTable (x.router.table.passedOver continuation)
    (∀ e, x.router.refusal? cmd = some e → sent =
      (.error e, if cmd.name = "" ∨ x.router.closed = true then x
        else x.withTable { x.router.table with nextId := x.router.table.nextId + 1 })) ∧
    (x.router.refusal? cmd = none → sent.1 = .ok id ∧
      match x.router.endpoint? dest with
      | none => sent.2 = passedOver.handOut n
          (request.deliver id (.error (.dispatchFailure ("no route to " ++ dest.text))) true)
      | some endpoint =>
        let received := x.received ++ [(endpoint, .cmd stamped)]
        match n.receive endpoint (.cmd stamped) x.outside with
        | (.ok (), outside) => ∃ table, x.router.table.Gains id request table ∧
            sent.2 = { x.withTable table with outside, received }
        | (.error e, outside) => sent.2 = Station.handOut n { passedOver with outside, received }
            (request.deliver id (.error e) true)) := by
  intro sent id request dest stamped passedOver
  constructor
  · intro e hreason
    exact n.run_sendCmd_of_refused hreason
  · intro hreason
    have hsent : sent = _ := n.run_sendCmd_of_accepted hreason
    have hdest : p.destination cmd.dest = dest := rfl
    rw [hdest] at hsent
    refine ⟨congrArg Prod.fst hsent, ?_⟩
    cases hroute : x.router.endpoint? dest with
    | none =>
      rw [hroute] at hsent
      rw [hsent]
      exact n.settled_taking hreason request _ rfl
    | some endpoint =>
      rw [hroute] at hsent
      change sent = (.ok id, n.fabric.settled id
        ((x.withTable (x.router.taking request)).pass n endpoint (.cmd stamped))) at hsent
      rw [Station.pass, Station.outside_withTable] at hsent
      dsimp only
      generalize n.receive endpoint (.cmd stamped) x.outside = answer at hsent ⊢
      obtain ⟨verdict, outside⟩ := answer
      cases verdict with
      | ok _ => exact ⟨_, PendingTable.gains_taking, congrArg Prod.snd hsent⟩
      | error e =>
        rw [hsent]
        exact n.settled_taking hreason request e rfl

end Neighbours

end Switchboard
