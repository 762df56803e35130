import Switchboard.Proofs.Router.Conduct
/-!
# Results reach their own commands

Commands are sent through any number of outlets and results are returned in any order, for any id
and any number of times, also by endpoints that are in the middle of taking a command. A record is
kept of the calls and of the results. Whatever result reaches a continuation was returned as it is,
under the id that the continuation's own command was given; ids are given out in the order in which
the calls began.
-/
namespace Switchboard

variable {κ ε η α β : Type}

/-- A call that sends a command: its outlet, the continuation with the number of the call, and what
the caller was answered. Calls are numbered in the order in which they begin. -/
structure Call (κ ε : Type) where
  outlet : Outlet ε
  continuation : κ × Nat
  answer : Except Fault RequestId

/-- The request that was taken in a call has this id, continuation and executor. -/
def Call.Owns (call : Call κ ε) (id : RequestId) (continuation : κ × Nat) (executor : ε) : Prop :=
  call.answer = .ok id ∧ call.continuation = continuation ∧ call.outlet.executor = executor

/-- The result that a delivery carries, if it does. -/
def Delivery.result? (d : Delivery κ ε) : Option CmdResult := d.outcome.toOption

/-- A router whose executors queue all deliveries, with a record of what goes through it. -/
structure Exchange.Record (κ ε η : Type) where
  router : Router (κ × Nat) ε η
  queued : List (Delivery (κ × Nat) ε) := []
  /-- how many calls have begun -/
  begun : Nat := 0
  /-- how many ids were given out -/
  allocated : Nat := 0
  /-- the calls that have returned -/
  calls : List (Call κ ε) := []
  /-- the results that were returned, oldest first -/
  returned : List CmdResult := []

/-- A result that comes to the table is handed out once at most, under the id that it came for. -/
theorem PendingTable.complete_cases (t : PendingTable κ ε) (id : RequestId) (result : CmdResult) :
    (t.complete id result).2.1 = [] ∨ ∃ request : PendingRequest κ ε,
      (t.complete id result).2.1 = [request.deliver id (.ok result) result.isFinal] := by
  cases hf : t.find? id with
  | none =>
    rw [complete_of_none hf]
    exact Or.inl rfl
  | some request =>
    cases hfinal : result.isFinal with
    | true =>
      rw [complete_of_final hf hfinal]
      exact Or.inr ⟨request, rfl⟩
    | false =>
      rw [complete_of_interim hf hfinal]
      cases request.streaming with
      | false => exact Or.inl rfl
      | true => exact Or.inr ⟨request, rfl⟩

namespace Exchange.Record

/-- Programs over a record. -/
abbrev Program (κ ε η : Type) := StateM (Record κ ε η)

/-- A record of nothing. -/
def ofRoutes (shards : Nat) (routes : List (Loc × η)) : Record κ ε η :=
  { router := { routes, table := .ofShards shards } }

/-- The router makes a step. One that gives out an id is counted. -/
def moveTo (x : Record κ ε η) (r : Router (κ × Nat) ε η) : Record κ ε η :=
  { x with
    router := r
    allocated := if r.table.nextId = x.router.table.nextId then x.allocated else x.allocated + 1 }

/-- The router on record whose endpoints take messages as `deliver` says. -/
def fabric (deliver : η → Message → Program κ ε η (Except Fault Unit)) :
    Fabric (Program κ ε η) (κ × Nat) ε η where
  router := .part (τ := Record κ ε η) Record.router moveTo
  submit d := modify fun x => { x with queued := x.queued ++ [d] }
  forward := deliver

/-- The router for what is not forwarded. -/
def desk : Fabric (Program κ ε η) (κ × Nat) ε η := fabric fun _ _ => return .ok ()

/-- Sends a command, and puts the call on record. -/
def sendCmd (deliver : η → Message → Program κ ε η (Except Fault Unit)) (p : Outlet ε) (cmd : Cmd)
    (continuation : κ) (streaming : Bool) : Program κ ε η (Except Fault RequestId) := do
  let n ← modifyGet fun x => (x.begun, { x with begun := x.begun + 1 })
  let answer ← p.sendCmd (fabric deliver) cmd (continuation, n) streaming
  modify fun x => { x with
    calls := x.calls ++ [{ outlet := p, continuation := (continuation, n), answer }] }
  return answer

/-- Puts a result on record, and returns it. -/
def returnResult (result : CmdResult) : Program κ ε η (Except Fault Unit) := do
  modify fun x => { x with returned := x.returned ++ [result] }
  desk.returnResult result

end Exchange.Record

namespace Conduct

open Exchange.Record

/-- Does what a conduct says, on record. -/
def record : Conduct κ ε η → Exchange.Record.Program κ ε η (Except Fault Unit)
  | answer verdict => return verdict
  | look next => do (next (← desk.router.get)).record
  | allocate next => do
    let id ← desk.router.step fun r =>
      let (id, table) := r.table.allocate
      (id, { r with table })
    (next id).record
  | complete id result next => do (next (← desk.complete id result)).record
  | fail id fault next => do (next (← desk.fail id fault)).record
  | cancelAll reason next => do (next (← desk.cancelAll reason)).record
  | returnResult result next => do (next (← Exchange.Record.returnResult result)).record
  | addRoute loc endpoint next => do
    (next (← desk.router.step (·.addRoute loc endpoint))).record
  | close next => do
    desk.router.modify Router.close
    next.record
  | clearRoutes next => do
    desk.router.modify Router.clearRoutes
    next.record
  | sendCmd p cmd continuation streaming deliver next => do
    let answer ← Exchange.Record.sendCmd (fun endpoint msg => (deliver endpoint msg).record) p cmd
      continuation streaming
    (next answer).record
  | send p msg deliver next => do
    let answer ← p.send (fabric fun endpoint msg => (deliver endpoint msg).record) msg
    (next answer).record

/-- Results enter the table through the router only: whatever else is done, no request is completed
directly. -/
def Returns : Conduct κ ε η → Prop
  | answer _ => True
  | look next => ∀ r, (next r).Returns
  | allocate next => ∀ id, (next id).Returns
  | complete _ _ _ => False
  | fail _ _ next => ∀ found, (next found).Returns
  | cancelAll _ next => ∀ n, (next n).Returns
  | returnResult _ next => ∀ answer, (next answer).Returns
  | addRoute _ _ next => ∀ answer, (next answer).Returns
  | close next => next.Returns
  | clearRoutes next => next.Returns
  | sendCmd _ _ _ _ deliver next =>
    (∀ endpoint msg, (deliver endpoint msg).Returns) ∧ ∀ answer, (next answer).Returns
  | send _ _ deliver next =>
    (∀ endpoint msg, (deliver endpoint msg).Returns) ∧ ∀ answer, (next answer).Returns

end Conduct

namespace Exchange.Record

/-- A step that gives out no id is not counted. -/
theorem moveTo_of_eq {x : Record κ ε η} {r : Router (κ × Nat) ε η}
    (hsame : r.table.nextId = x.router.table.nextId) : x.moveTo r = { x with router := r } := by
  rw [moveTo, if_pos hsame]

/-- A step that gives out an id is counted. -/
theorem moveTo_of_next {x : Record κ ε η} {r : Router (κ × Nat) ε η}
    (hnext : r.table.nextId = x.router.table.nextId + 1) :
    x.moveTo r = { x with router := r, allocated := x.allocated + 1 } := by
  have hne : r.table.nextId ≠ x.router.table.nextId := by
    intro heq
    have hzero : (1 : UInt64) = 0 :=
      (UInt64.add_right_inj x.router.table.nextId).mp
        ((hnext.symm.trans heq).trans (UInt64.add_zero _).symm)
    exact absurd hzero (by decide)
  rw [moveTo, if_neg hne]

section Run

variable {deliver : η → Message → Program κ ε η (Except Fault Unit)}

theorem run_get (x : Record κ ε η) : (fabric deliver).router.get.run x = (x.router, x) := by
  change (x.router, x.moveTo x.router) = _
  rw [moveTo_of_eq rfl]

theorem run_submitAll (deliveries : List (Delivery (κ × Nat) ε)) (x : Record κ ε η) :
    (deliveries.forM (fabric deliver).submit).run x =
      (PUnit.unit, { x with queued := x.queued ++ deliveries }) := by
  induction deliveries generalizing x with
  | nil =>
    rw [List.append_nil]
    rfl
  | cons d deliveries ih =>
    have hrest := ih { x with queued := x.queued ++ [d] }
    rw [List.append_assoc] at hrest
    exact hrest

/-- An operation of the table, with its answer and where its deliveries go. -/
theorem run_onTable {α : Type}
    (op : PendingTable (κ × Nat) ε → α × List (Delivery (κ × Nat) ε) × PendingTable (κ × Nat) ε)
    (x : Record κ ε η) :
    ((fabric deliver).onTable op).run x = ((op x.router.table).1,
      { x.moveTo { x.router with table := (op x.router.table).2.2 } with
        queued := x.queued ++ (op x.router.table).2.1 }) := by
  change ((op x.router.table).1,
    (((op x.router.table).2.1.forM (fabric deliver).submit).run _).2) = _
  rw [run_submitAll]
  rfl

/-- A result that names no request is refused. -/
theorem run_returnResult_of_none {result : CmdResult} (h : result.requestId = none)
    (x : Record κ ε η) : (returnResult result).run x =
      (.error (.ofInvalid ⟨.cmdResult, .unbound⟩), { x with returned := x.returned ++ [result] }) := by
  have hinvalid : result.validate = .error ⟨.cmdResult, .unbound⟩ := by rw [CmdResult.validate, h]
  rw [returnResult, StateT.run_bind, Fabric.returnResult, hinvalid]
  rfl

/-- A result that names a request is handed to the table. -/
theorem run_returnResult_of_some {result : CmdResult} {id : RequestId}
    (h : result.requestId = some id) (x : Record κ ε η) : (returnResult result).run x =
      (.ok (), { x.moveTo { x.router with table := (x.router.table.complete id result).2.2 } with
        queued := x.queued ++ (x.router.table.complete id result).2.1
        returned := x.returned ++ [result] }) := by
  have hvalid : result.validate = .ok () := by rw [CmdResult.validate, h]
  rw [returnResult, StateT.run_bind, Fabric.returnResult, hvalid, h]
  change ((desk.complete id result >>= _).run { x with returned := x.returned ++ [result] } : Id _) = _
  rw [StateT.run_bind, Fabric.complete, desk, run_onTable]
  rfl

end Run

/-- The calls on record, and those that are under way. -/
def known (underway : List (Call κ ε)) (x : Record κ ε η) : List (Call κ ε) := x.calls ++ underway

theorem known_cons_perm (call : Call κ ε) (underway : List (Call κ ε)) (x : Record κ ε η) :
    (x.known (call :: underway)).Perm (call :: x.known underway) := List.perm_middle

theorem mem_known_cons {call other : Call κ ε} {underway : List (Call κ ε)} {x : Record κ ε η} :
    other ∈ x.known (call :: underway) ↔ other = call ∨ other ∈ x.known underway :=
  (x.known_cons_perm call underway).mem_iff.trans List.mem_cons

/-- The invariant of a record, while some calls are under way whose requests were taken. Whatever
waits or is queued belongs to one of the calls. The calls have marks of their own, and as long as
ids do not reach around, later calls have later ids. -/
structure Sound (underway : List (Call κ ε)) (x : Record κ ε η) : Prop where
  sharded : x.router.table.Sharded
  waiting : ∀ e ∈ x.router.table.entries,
    ∃ call ∈ x.known underway, call.Owns e.1 e.2.continuation e.2.executor
  queued : ∀ d ∈ x.queued, ∃ call ∈ x.known underway, call.Owns d.id d.continuation d.executor
  bound : ∀ d ∈ x.queued, ∀ result, d.outcome = .ok result → result.requestId = some d.id
  returned : (x.queued.filterMap Delivery.result?).Sublist x.returned
  begun : ∀ call ∈ x.known underway, call.continuation.2 < x.begun
  marks : ((x.known underway).map (·.continuation.2)).Nodup
  next : x.router.table.nextId = UInt64.ofNat (x.allocated + 1)
  ids : x.allocated < UInt64.size → ∀ call ∈ x.known underway, ∀ id, call.answer = .ok id →
    id.value.toNat ≤ x.allocated
  ordered : x.allocated < UInt64.size → ∀ call ∈ x.known underway, ∀ call' ∈ x.known underway,
    ∀ id id', call.answer = .ok id → call'.answer = .ok id' →
      call.continuation.2 < call'.continuation.2 → id.value < id'.value

theorem sound_ofRoutes (shards : Nat) (routes : List (Loc × η)) :
    Sound [] (ofRoutes shards routes : Record κ ε η) where
  sharded := PendingTable.sharded_ofShards shards
  waiting e he := by simp [ofRoutes] at he
  queued := nofun
  bound := nofun
  returned := List.Sublist.refl _
  begun := nofun
  marks := List.nodup_nil
  next := rfl
  ids _ := nofun
  ordered _ := nofun

namespace Sound

variable {underway : List (Call κ ε)} {x : Record κ ε η}

/-- An id is given out. -/
theorem allocate (h : x.Sound underway) :
    Sound underway (x.moveTo { x.router with table := x.router.table.allocate.2 }) := by
  rw [moveTo_of_next (by rfl)]
  have hfewer (hfew : x.allocated + 1 < UInt64.size) : x.allocated < UInt64.size := by omega
  exact
    { h with
      sharded := h.sharded.allocate
      next := by
        change x.router.table.nextId + 1 = _
        rw [h.next, ← UInt64.ofNat_one, ← UInt64.ofNat_add]
      ids := fun hfew call hcall id hid =>
        Nat.le_succ_of_le (h.ids (hfewer hfew) call hcall id hid)
      ordered := fun hfew => h.ordered (hfewer hfew) }

section Begin

variable {call : Call κ ε}

/-- The marks of all calls when one more begins. -/
theorem marks_cons (h : x.Sound underway) (hmark : call.continuation.2 = x.begun) :
    ((x.known (call :: underway)).map (·.continuation.2)).Nodup := by
  rw [((x.known_cons_perm call underway).map _).nodup_iff, List.map_cons, List.nodup_cons]
  refine ⟨fun hold => ?_, h.marks⟩
  obtain ⟨other, hother, heq⟩ := List.mem_map.mp hold
  have hbefore := h.begun other hother
  omega

theorem begun_cons (h : x.Sound underway) (hmark : call.continuation.2 = x.begun) :
    ∀ other ∈ x.known (call :: underway), other.continuation.2 < x.begun + 1 := by
  intro other hother
  rcases mem_known_cons.mp hother with rfl | hother
  · omega
  · exact Nat.lt_succ_of_lt (h.begun other hother)

theorem exists_cons {id : RequestId} {c : κ × Nat} {executor : ε}
    (hcall : ∃ call ∈ x.known underway, call.Owns id c executor) :
    ∃ other ∈ x.known (call :: underway), other.Owns id c executor := by
  obtain ⟨other, hother, howns⟩ := hcall
  exact ⟨other, mem_known_cons.mpr (Or.inr hother), howns⟩

/-- A call that begins and whose command is not taken. -/
theorem refuse (h : x.Sound underway) (hmark : call.continuation.2 = x.begun) {e : Fault}
    (hanswer : call.answer = .error e) :
    Sound (call :: underway) { x with begun := x.begun + 1 } := by
  have hold (other : Call κ ε) (hother : other ∈ x.known (call :: underway)) (id : RequestId)
      (hid : other.answer = .ok id) : other ∈ x.known underway := by
    rcases mem_known_cons.mp hother with rfl | hother
    · cases hanswer.symm.trans hid
    · exact hother
  exact
    { h with
      waiting := fun e he => exists_cons (h.waiting e he)
      queued := fun d hd => exists_cons (h.queued d hd)
      begun := h.begun_cons hmark
      marks := h.marks_cons hmark
      ids := fun hfew other hother id hid => h.ids hfew other (hold other hother id hid) id hid
      ordered := fun hfew other hother other' hother' id id' hid hid' =>
        h.ordered hfew other (hold other hother id hid) other' (hold other' hother' id' hid') id id'
          hid hid' }

/-- A call that begins and whose command is taken. Its id is later than all others. -/
theorem accept (h : x.Sound underway) {request : PendingRequest (κ × Nat) ε} {id : RequestId}
    {r : Router (κ × Nat) ε η} (haccepts : x.router.Accepts request id r)
    (hmark : request.continuation.2 = x.begun)
    (howns : call.Owns id request.continuation request.executor) :
    Sound (call :: underway) (moveTo { x with begun := x.begun + 1 } r) := by
  obtain ⟨hanswer, hcontinuation, hexecutor⟩ := howns
  rw [moveTo_of_next (x := { x with begun := x.begun + 1 }) haccepts.nextId]
  have hcall : call.continuation.2 = x.begun := by rw [hcontinuation, hmark]
  have hid (hfew : x.allocated + 1 < UInt64.size) : id.value.toNat = x.allocated + 1 := by
    rw [haccepts.allocated]
    change x.router.table.nextId.toNat = _
    rw [h.next, UInt64.toNat_ofNat']
    exact Nat.mod_eq_of_lt hfew
  have hids (hfew : x.allocated + 1 < UInt64.size) (other : Call κ ε)
      (hother : other ∈ x.known underway) (id' : RequestId) (hid' : other.answer = .ok id') :
      id'.value.toNat ≤ x.allocated := h.ids (by omega) other hother id' hid'
  refine
    { sharded := haccepts.sharded, waiting := ?_
      queued := fun d hd => exists_cons (h.queued d hd)
      bound := h.bound, returned := h.returned
      begun := h.begun_cons hcall, marks := h.marks_cons hcall
      next := ?_, ids := ?_, ordered := ?_ }
  · intro e he
    rcases List.mem_cons.mp (haccepts.entries.mem_iff.mp he) with rfl | he
    · exact ⟨call, mem_known_cons.mpr (Or.inl rfl), hanswer, hcontinuation, hexecutor⟩
    · exact exists_cons (h.waiting e he)
  · rw [haccepts.nextId, h.next, ← UInt64.ofNat_one, ← UInt64.ofNat_add]
  · intro hfew other hother id' hid'
    change id'.value.toNat ≤ x.allocated + 1
    rcases mem_known_cons.mp hother with rfl | hold
    · exact Nat.le_of_eq (Except.ok.inj (hanswer.symm.trans hid') ▸ hid hfew)
    · exact Nat.le_succ_of_le (hids hfew other hold id' hid')
  · intro hfew other hother other' hother' id₁ id₂ hid₁ hid₂ hlater
    rcases mem_known_cons.mp hother with rfl | hold
    · -- no call began after the one that begins now
      have hbound := h.begun_cons hcall other' hother'
      omega
    · rcases mem_known_cons.mp hother' with rfl | hold'
      · have hbefore := hids hfew other hold id₁ hid₁
        rw [← Except.ok.inj (hanswer.symm.trans hid₂), UInt64.lt_iff_toNat_lt, hid hfew]
        omega
      · exact h.ordered (Nat.lt_of_succ_lt hfew) other hold other' hold' id₁ id₂ hid₁ hid₂ hlater

end Begin

/-- A call returns. -/
theorem file {call : Call κ ε} (h : x.Sound (call :: underway)) :
    Sound underway { x with calls := x.calls ++ [call] } := by
  have hknown : known underway { x with calls := x.calls ++ [call] } =
      x.known (call :: underway) := by
    simp [known]
  exact
    { h with
      waiting := hknown ▸ h.waiting
      queued := hknown ▸ h.queued
      begun := hknown ▸ h.begun
      marks := hknown ▸ h.marks
      ids := hknown ▸ h.ids
      ordered := hknown ▸ h.ordered }

section Serve

variable [DecidableEq κ]

/-- Requests are served, and results that were returned are handed out to the requests that they
name. -/
theorem serve (h : x.Sound underway) {r : Router (κ × Nat) ε η}
    {deliveries : List (Delivery (κ × Nat) ε)} (results : List CmdResult)
    (hserves : x.router.table.Serves deliveries r.table)
    (hbound : ∀ d ∈ deliveries, ∀ result, d.outcome = .ok result → result.requestId = some d.id)
    (hresults : (deliveries.filterMap Delivery.result?).Sublist results) :
    Sound underway { x.moveTo r with
      queued := x.queued ++ deliveries, returned := x.returned ++ results } := by
  rw [moveTo_of_eq hserves.nextId]
  refine { h with
    sharded := hserves.handsOut.sharded, waiting := ?_, queued := ?_, bound := ?_, returned := ?_
    next := hserves.nextId.trans h.next }
  · exact fun e he => h.waiting e (hserves.entries he)
  · intro d hd
    rcases List.mem_append.mp hd with hd | hd
    · exact h.queued d hd
    · obtain ⟨e, he, heq⟩ := hserves.sources d hd
      rw [heq]
      exact h.waiting e he
  · intro d hd
    rcases List.mem_append.mp hd with hd | hd
    · exact h.bound d hd
    · exact hbound d hd
  · change ((x.queued ++ deliveries).filterMap _).Sublist _
    rw [List.filterMap_append]
    exact h.returned.append hresults

/-- Requests end with faults. -/
theorem serve_faults (h : x.Sound underway) {r : Router (κ × Nat) ε η}
    {deliveries : List (Delivery (κ × Nat) ε)} (hserves : x.router.table.Serves deliveries r.table)
    (hfaults : ∀ d ∈ deliveries, d.result? = none) :
    Sound underway { x.moveTo r with queued := x.queued ++ deliveries } := by
  have hserved := h.serve [] hserves
    (fun d hd result hresult => by
      have hnone := hfaults d hd
      rw [Delivery.result?, hresult] at hnone
      cases hnone)
    (by rw [List.filterMap_eq_nil_iff.mpr hfaults])
  rw [List.append_nil] at hserved
  exact hserved

/-- The router makes a step that has nothing to do with its table. -/
theorem setRouter (h : x.Sound underway) {r : Router (κ × Nat) ε η}
    (htable : r.table = x.router.table) : Sound underway (x.moveTo r) := by
  have hserves : x.router.table.Serves [] r.table := by
    rw [htable]
    exact h.sharded.serves_nil
  have hserved := h.serve_faults hserves nofun
  rw [List.append_nil] at hserved
  exact hserved

end Serve

end Sound

/-- A program that keeps records sound, whatever calls are under way. -/
def Keeps (α : Type) (p : Program κ ε η α) : Prop :=
  ∀ (underway : List (Call κ ε)) (x : Record κ ε η), x.Sound underway → (p.run x).2.Sound underway

theorem composes_keeps : Composes (m := Program κ ε η) Keeps where
  pure _ _ _ h := h
  bind hp hf underway x h := hf _ underway _ (hp underway x h)

section Programs

variable {deliver : η → Message → Program κ ε η (Except Fault Unit)}

theorem keeps_get : Keeps _ (fabric deliver).router.get := by
  intro underway x h
  rw [run_get]
  exact h

theorem reaches_fabric (hdeliver : ∀ endpoint msg, Keeps _ (deliver endpoint msg)) :
    Composes.Reaches Keeps (fabric deliver) where
  get := keeps_get
  forward := hdeliver

/-- What is done to the routes does nothing to requests. -/
theorem keeps_routes [DecidableEq κ] {α : Type}
    {f : Router (κ × Nat) ε η → α × Router (κ × Nat) ε η}
    (hf : ∀ r, (f r).2.table = r.table) : Keeps α ((fabric deliver).router.step f) :=
  fun _ x h => h.setRouter (hf x.router)

theorem keeps_allocate : Keeps _ ((fabric deliver).router.step fun r =>
    (r.table.allocate.1, { r with table := r.table.allocate.2 })) :=
  fun _ _ h => h.allocate

variable [DecidableEq κ]

/-- An operation of the table that hands out faults. -/
theorem keeps_onTable {α : Type}
    {op : PendingTable (κ × Nat) ε → α × List (Delivery (κ × Nat) ε) × PendingTable (κ × Nat) ε}
    (hserves : ∀ t : PendingTable (κ × Nat) ε, t.Sharded → t.Serves (op t).2.1 (op t).2.2)
    (hfaults : ∀ t, ∀ d ∈ (op t).2.1, d.result? = none) : Keeps α ((fabric deliver).onTable op) := by
  intro underway x h
  rw [run_onTable]
  exact h.serve_faults (r := { x.router with table := (op x.router.table).2.2 })
    (hserves _ h.sharded) (hfaults _)

theorem keeps_fail (id : RequestId) (fault : Fault) : Keeps _ ((fabric deliver).fail id fault) := by
  refine keeps_onTable (fun t ht => ht.serves_fail id fault) fun t d hd => ?_
  cases hf : t.find? id with
  | none =>
    rw [PendingTable.fail_of_none hf] at hd
    cases hd
  | some request =>
    rw [PendingTable.fail_of_some hf] at hd
    rw [List.mem_singleton.mp hd]
    rfl

theorem sound_settled {underway : List (Call κ ε)} (id : RequestId)
    {forwarded : Except Fault Unit × Record κ ε η} (h : forwarded.2.Sound underway) :
    ((fabric deliver).settled id forwarded).Sound underway := by
  obtain ⟨verdict, x⟩ := forwarded
  cases verdict with
  | ok _ => exact h
  | error e => exact keeps_fail id e underway x h

theorem keeps_cancelAll (reason : String) : Keeps _ ((fabric deliver).cancelAll reason) := by
  refine keeps_onTable (fun t _ => t.serves_cancelAll reason) fun t d hd => ?_
  obtain ⟨e, -, rfl⟩ := List.mem_map.mp hd
  rfl

theorem keeps_returnResult (result : CmdResult) :
    Keeps _ (returnResult result : Program κ ε η (Except Fault Unit)) := by
  intro underway x h
  cases hid : result.requestId with
  | none =>
    rw [run_returnResult_of_none hid]
    exact { h with returned := h.returned.trans (List.sublist_append_left _ _) }
  | some id =>
    rw [run_returnResult_of_some hid]
    refine h.serve (r := { x.router with table := (x.router.table.complete id result).2.2 })
      [result] (h.sharded.serves_complete id result) ?_ ?_
    all_goals
      rcases x.router.table.complete_cases id result with hnone | ⟨request, hone⟩
    · rw [hnone]
      nofun
    · rw [hone]
      intro d hd other hother
      obtain rfl := List.mem_singleton.mp hd
      rw [← Except.ok.inj hother]
      exact hid
    · rw [hnone]
      exact List.nil_sublist _
    · rw [hone]
      exact List.Sublist.refl _

/-- A command that is sent belongs to the call that sends it, if endpoints keep records sound. -/
theorem keeps_sendCmd (hdeliver : ∀ endpoint msg, Keeps _ (deliver endpoint msg)) (p : Outlet ε)
    (cmd : Cmd) (continuation : κ) (streaming : Bool) :
    Keeps _ (sendCmd deliver p cmd continuation streaming) := by
  intro underway x h
  let begun : Record κ ε η := { x with begun := x.begun + 1 }
  let request : PendingRequest (κ × Nat) ε :=
    { continuation := (continuation, x.begun), executor := p.executor, streaming }
  let sent := (p.sendCmd (fabric deliver) cmd (continuation, x.begun) streaming).run begun
  let call : Call κ ε := { outlet := p, continuation := (continuation, x.begun), answer := sent.1 }
  suffices hsent : sent.2.Sound (call :: underway) from hsent.file
  rcases Fabric.run_sendCmd (fabric deliver) run_get p cmd (continuation, x.begun) streaming begun
    with ⟨e, hrun⟩ | ⟨e, hanswer, hrun⟩ | ⟨id, hanswer, hrun⟩
  · have hcall : call.answer = .error e := congrArg Prod.fst hrun
    rw [show sent.2 = begun from congrArg Prod.snd hrun]
    exact h.refuse rfl hcall
  · have hcall : call.answer = .error e := congrArg Prod.fst hrun
    rw [show sent.2 = begun.moveTo (x.router.accept request).2 from congrArg Prod.snd hrun]
    rcases Router.accept_cases h.sharded request with ⟨id, hid, -⟩ | ⟨e', -, htable⟩
    · cases hid.symm.trans hanswer
    · rw [htable]
      exact (h.refuse rfl hcall).allocate
  · have hcall : call.answer = .ok id := congrArg Prod.fst hrun
    rcases Router.accept_cases h.sharded request with ⟨id', hid, haccepts⟩ | ⟨e', he, -⟩
    · obtain rfl : id' = id := Except.ok.inj (hid.symm.trans hanswer)
      have haccepted : Sound (call :: underway) (begun.moveTo (x.router.accept request).2) :=
        h.accept haccepts rfl ⟨hcall, rfl, rfl⟩
      have hforwarded := composes_keeps.forwardTo (reaches_fabric hdeliver) (p.destination cmd.dest)
        (.cmd (cmd.stamped id' p.src (p.destination cmd.dest))) _ _ haccepted
      rw [show sent.2 = _ from congrArg Prod.snd hrun]
      exact sound_settled id' hforwarded
    · cases he.symm.trans hanswer

end Programs

end Exchange.Record

namespace Conduct

open Exchange.Record

/-- Whatever an endpoint does keeps records sound, if results enter through the router only. -/
theorem keeps_record [DecidableEq κ] {conduct : Conduct κ ε η} (h : conduct.Returns) :
    Keeps _ conduct.record := by
  have hK : Composes (m := Exchange.Record.Program κ ε η) Keeps := composes_keeps
  induction conduct with
  | answer verdict => exact hK.pure verdict
  | look next ih => exact hK.bind keeps_get fun r => ih r (h r)
  | allocate next ih => exact hK.bind keeps_allocate fun id => ih id (h id)
  | complete id result next ih => exact h.elim
  | fail id fault next ih => exact hK.bind (keeps_fail id fault) fun found => ih found (h found)
  | cancelAll reason next ih => exact hK.bind (keeps_cancelAll reason) fun n => ih n (h n)
  | returnResult result next ih =>
    exact hK.bind (keeps_returnResult result) fun answer => ih answer (h answer)
  | addRoute loc endpoint next ih =>
    refine hK.bind (keeps_routes fun r => ?_) fun answer => ih answer (h answer)
    rw [Router.addRoute]
    split <;> rfl
  | close next ih => exact hK.bind (keeps_routes fun _ => rfl) fun _ => ih h
  | clearRoutes next ih => exact hK.bind (keeps_routes fun _ => rfl) fun _ => ih h
  | sendCmd p cmd continuation streaming deliver next ihdeliver ih =>
    have hdeliver : ∀ endpoint msg, Keeps _ (deliver endpoint msg).record :=
      fun endpoint msg => ihdeliver endpoint msg (h.1 endpoint msg)
    exact hK.bind (keeps_sendCmd hdeliver p cmd continuation streaming) fun answer =>
      ih answer (h.2 answer)
  | send p msg deliver next ihdeliver ih =>
    have hdeliver : ∀ endpoint msg, Keeps _ (deliver endpoint msg).record :=
      fun endpoint msg => ihdeliver endpoint msg (h.1 endpoint msg)
    exact hK.bind (hK.send (reaches_fabric hdeliver) p msg) fun answer => ih answer (h.2 answer)

end Conduct
namespace Exchange.Record

/-- Whatever is sent and whatever results are returned, in any order: a result that is handed out
was returned as it is, names the id that the command of its continuation was given, and is queued on
the executor of the outlet that sent the command. No result is handed out twice. Calls have marks of
their own, and as long as fewer than `2 ^ 64` ids are given out, calls that began later were given
later ids. A result is refused only if it names no request; when nothing waits under the id, it is
counted as dropped and that is all. -/
theorem results_reach_own_commands (shards : Nat) (routes : List (Loc × η))
    (conduct : Conduct κ ε η) (hreturns : conduct.Returns) :
    let x := (conduct.record.run (ofRoutes shards routes)).2
    (∀ d ∈ x.queued, ∀ result, d.outcome = .ok result →
      (∃ call ∈ x.calls, call.continuation = d.continuation) ∧
      (∀ call ∈ x.calls, call.continuation = d.continuation →
        call.answer = .ok d.id ∧ result.requestId = some d.id ∧
          d.executor = call.outlet.executor) ∧ result ∈ x.returned) ∧
    (x.queued.filterMap Delivery.result?).Sublist x.returned ∧
    (x.calls.map (·.continuation.2)).Nodup ∧
    (x.allocated < UInt64.size → ∀ call ∈ x.calls, ∀ call' ∈ x.calls, ∀ id id',
      call.answer = .ok id → call'.answer = .ok id' →
      call.continuation.2 < call'.continuation.2 → id.value < id'.value) ∧
    ∀ result, let after := (returnResult result).run x
      ((∃ fault, after.1 = .error fault) ↔ result.requestId = none) ∧
      (result.requestId = none → after.2 = { x with returned := x.returned ++ [result] }) ∧
      ∀ id, result.requestId = some id → x.router.table.find? id = none →
        after = (.ok (), { x with
          router := { x.router with
            table := x.router.table.count (fun s => { s with dropped := s.dropped + 1 }) }
          returned := x.returned ++ [result] }) := by
  classical
  intro x
  have h : x.Sound [] := Conduct.keeps_record hreturns [] _ (sound_ofRoutes shards routes)
  have hknown : x.known [] = x.calls := List.append_nil _
  refine ⟨fun d hd result hresult => ⟨?_, ?_, ?_⟩, h.returned, hknown ▸ h.marks,
    hknown ▸ h.ordered, fun result => ⟨?_, fun hnone => ?_, fun id hid hnone => ?_⟩⟩
  · obtain ⟨call, hcall, -, hcontinuation, -⟩ := h.queued d hd
    exact ⟨call, hknown ▸ hcall, hcontinuation⟩
  · intro call hcall hcontinuation
    obtain ⟨owner, howner, hanswer, hsame, hexecutor⟩ := h.queued d hd
    obtain rfl : call = owner := by
      have hmarks : (x.calls.map (·.continuation.2)).Nodup := hknown ▸ h.marks
      refine List.inj_on_of_nodup_map hmarks hcall (hknown ▸ howner) ?_
      rw [hcontinuation, hsame]
    exact ⟨hanswer, h.bound d hd result hresult, hexecutor.symm⟩
  · refine h.returned.subset (List.mem_filterMap.mpr ⟨d, hd, ?_⟩)
    rw [Delivery.result?, hresult]
    rfl
  · cases hid : result.requestId with
    | none =>
      rw [run_returnResult_of_none hid]
      simp
    | some id =>
      rw [run_returnResult_of_some hid]
      simp
  · rw [run_returnResult_of_none hnone]
  · rw [run_returnResult_of_some hid, PendingTable.complete_of_none hnone, List.append_nil,
      moveTo_of_eq (by rfl)]

/-- The tester sends a command to an endpoint that sends one of its own before it answers. Both are
answered in the wrong order, the second one twice, and a result comes for a request that never
was. -/
def crossing : Conduct String Nat Unit :=
  let answer (id : UInt64) (next : Conduct String Nat Unit) : Conduct String Nat Unit :=
    .returnResult { verdict := .ok, requestId := some ⟨id⟩ } fun _ => next
  .sendCmd { src := .tester, defaultDest := .extension "echo", executor := 0 } { name := "ping" }
    "outer" false
    (fun _ _ => .sendCmd { src := .extension "echo", defaultDest := .tester, executor := 1 }
      { name := "pong" } "inner" false (fun _ _ => .answer (.ok ())) fun _ => .answer (.ok ()))
    fun _ => answer 2 (answer 9 (answer 2 (answer 1 (.answer (.ok ())))))

/-- The record of such an exchange. -/
def crossed : Record String Nat Unit :=
  (crossing.record.run (ofRoutes 2 [(.tester, ()), (.extension "echo", ())])).2

/-- Each answer goes to its own command, on the executor of its sender. -/
theorem crossed_reach :
    crossing.Returns ∧
      crossed.calls.map (fun call => (call.continuation, call.answer.toOption)) =
        [(("inner", 1), some ⟨2⟩), (("outer", 0), some ⟨1⟩)] ∧
      crossed.queued.map (fun d => (d.id, d.continuation, d.executor)) =
        [(⟨2⟩, ("inner", 1), 1), (⟨1⟩, ("outer", 0), 0)] ∧
      (crossed.queued.filterMap Delivery.result?).Sublist crossed.returned ∧
      ∀ id, crossed.router.table.find? id = none →
        ((returnResult { verdict := .ok, requestId := some id }).run crossed).1 = .ok () := by
  have hreturns : crossing.Returns := by
    simp [crossing, Conduct.Returns]
  have hreach :=
    results_reach_own_commands 2 [(.tester, ()), (.extension "echo", ())] crossing hreturns
  rw [← crossed] at hreach
  obtain ⟨-, hsublist, -, -, hresults⟩ := hreach
  refine ⟨hreturns, by decide +kernel, by decide +kernel, hsublist, fun id hnone => ?_⟩
  obtain ⟨-, -, hdropped⟩ := hresults { verdict := .ok, requestId := some id }
  exact congrArg Prod.fst (hdropped id rfl hnone)

end Exchange.Record
end Switchboard
