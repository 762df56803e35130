import Mathlib.Algebra.GroupWithZero.Nat
import Switchboard.Pending.History
import Switchboard.Proofs.Pending.Endings
import Switchboard.Router
/-!
# The counters of a table balance

Every request that a table has ever taken is completed, failed, cancelled or still waits, and the
counters say how many there are of each. Each counter can be read off what was asked and answered.
A table that is closed is empty, and it stays both. What executors do with the deliveries that they
are handed makes no difference, be it that they refuse them.
-/
namespace Switchboard

variable {κ ε : Type}

namespace PendingCall

/-- Whether the answer says that a request was taken. -/
def registers : PendingCall κ ε → PendingAnswer → Bool
  | .register .., .done (.ok ()) => true
  | _, _ => false

/-- Whether the answer says that a final result ended a request. -/
def completes : PendingCall κ ε → PendingAnswer → Bool
  | .complete _ result, .flag true => result.isFinal
  | _, _ => false

/-- Whether the answer says that a fault ended a request. -/
def fails : PendingCall κ ε → PendingAnswer → Bool
  | .fail .., .flag true => true
  | _, _ => false

/-- How many requests the answer says were cancelled. -/
def cancels : PendingCall κ ε → PendingAnswer → Nat
  | .cancelAll _, .count n => n
  | _, _ => 0

/-- Whether the answer says that a result found no request. -/
def drops : PendingCall κ ε → PendingAnswer → Bool
  | .complete .., .flag false => true
  | _, _ => false

end PendingCall

namespace PendingTable

theorem Sharded.size_erase {t : PendingTable κ ε} (h : t.Sharded) {id : RequestId}
    {request : PendingRequest κ ε} (hf : t.find? id = some request) :
    (t.erase id).size + 1 = t.size := by
  rw [← length_entries, ← length_entries, (h.entries_perm_erase hf).length_eq, List.length_cons]

theorem size_ofShards (shards : Nat) : (ofShards shards : PendingTable κ ε).size = 0 := by
  rw [← length_entries, entries_ofShards, List.length_nil]

theorem size_cancelAll (t : PendingTable κ ε) (reason : String) :
    (t.cancelAll reason).2.2.size = 0 := by
  rw [← length_entries, entries_cancelAll, List.length_nil]

/-- Every operation keeps entries in the shards of their ids. -/
theorem Sharded.perform {t : PendingTable κ ε} (h : t.Sharded) (call : PendingCall κ ε) :
    (t.perform call).2.2.Sharded := by
  classical
  cases call with
  | allocate => exact h.allocate
  | register id request => exact (h.register id request).1
  | complete id result => exact (h.handsOut_complete id result).sharded
  | fail id fault => exact (h.handsOut_fail id fault).sharded
  | cancelAll reason => exact sharded_cancelAll t reason
  | contains id => exact h
  | size => exact h
  | isClosed => exact h
  | stats => exact h

/-- A table after a call: what waits in it and its counters, told by the answer. -/
structure Follows (t : PendingTable κ ε) (call : PendingCall κ ε) (answer : PendingAnswer)
    (t' : PendingTable κ ε) : Prop where
  registered : t'.stats.registered =
    t.stats.registered + if call.registers answer then 1 else 0
  completed : t'.stats.completed = t.stats.completed + if call.completes answer then 1 else 0
  failed : t'.stats.failed = t.stats.failed + if call.fails answer then 1 else 0
  cancelled : t'.stats.cancelled = t.stats.cancelled + call.cancels answer
  dropped : t'.stats.dropped = t.stats.dropped + if call.drops answer then 1 else 0
  size : t'.size + (if call.completes answer then 1 else 0) +
      (if call.fails answer then 1 else 0) + call.cancels answer =
    t.size + if call.registers answer then 1 else 0
  closed : t.closed = true → t'.closed = true
  refused : t.closed = true → call.registers answer = false
  emptied : t'.closed = true → t.closed = true ∨ t'.size = 0

namespace Follows

variable {t : PendingTable κ ε} {id : RequestId}

/-- A call that the answer tells to have done nothing does nothing. -/
theorem still (t : PendingTable κ ε) {call : PendingCall κ ε} {answer : PendingAnswer}
    (hregisters : call.registers answer = false) (hcompletes : call.completes answer = false)
    (hfails : call.fails answer = false) (hcancels : call.cancels answer = 0)
    (hdrops : call.drops answer = false) : t.Follows call answer t := by
  constructor <;> simp +contextual [*]

theorem register (h : t.Sharded) (id : RequestId) (request : PendingRequest κ ε) :
    t.Follows (.register id request) (.done (t.register id request).1)
      (t.register id request).2 := by
  rw [PendingTable.register]
  split
  · exact still t rfl rfl rfl rfl rfl
  · next hopen =>
    split
    · exact still t rfl rfl rfl rfl rfl
    · exact
        { registered := rfl, completed := rfl, failed := rfl, cancelled := rfl, dropped := rfl
          size := (h.entries_insert id request).length_eq
          closed := fun hclosed => hclosed
          refused := fun hclosed => absurd hclosed hopen
          emptied := Or.inl }

theorem complete (h : t.Sharded) (id : RequestId) (result : CmdResult) :
    t.Follows (.complete id result) (.flag (t.complete id result).1)
      (t.complete id result).2.2 := by
  cases hf : t.find? id with
  | none =>
    rw [complete_of_none hf]
    exact
      { registered := rfl, completed := rfl, failed := rfl, cancelled := rfl, dropped := rfl
        size := rfl, closed := fun hclosed => hclosed, refused := fun _ => rfl
        emptied := Or.inl }
  | some request =>
    cases hfinal : result.isFinal with
    | true =>
      rw [complete_of_final hf hfinal]
      have hcompletes : (PendingCall.complete id result : PendingCall κ ε).completes (.flag true) =
        true := hfinal
      refine
        { registered := rfl, completed := ?_, failed := rfl, cancelled := rfl, dropped := rfl
          size := ?_
          closed := fun hclosed => hclosed
          refused := fun _ => rfl
          emptied := Or.inl }
      · rw [hcompletes]
        rfl
      · rw [hcompletes]
        exact h.size_erase hf
    | false =>
      rw [complete_of_interim hf hfinal]
      exact still t rfl hfinal rfl rfl rfl

theorem fail (h : t.Sharded) (id : RequestId) (fault : Fault) :
    t.Follows (.fail id fault) (.flag (t.fail id fault).1) (t.fail id fault).2.2 := by
  cases hf : t.find? id with
  | none =>
    rw [fail_of_none hf]
    exact still t rfl rfl rfl rfl rfl
  | some request =>
    rw [fail_of_some hf]
    exact
      { registered := rfl, completed := rfl, failed := rfl, cancelled := rfl, dropped := rfl
        size := h.size_erase hf
        closed := fun hclosed => hclosed
        refused := fun _ => rfl
        emptied := Or.inl }

theorem cancelAll (t : PendingTable κ ε) (reason : String) :
    t.Follows (.cancelAll reason) (.count (t.cancelAll reason).1) (t.cancelAll reason).2.2 where
  registered := rfl
  completed := rfl
  failed := rfl
  cancelled := rfl
  dropped := rfl
  size := by
    have hall : (t.cancelAll reason).1 = t.size := t.pending_perm.length_eq
    simp [PendingCall.registers, PendingCall.completes, PendingCall.fails, PendingCall.cancels,
      size_cancelAll, hall]
  closed _ := rfl
  refused _ := rfl
  emptied _ := Or.inr (size_cancelAll t reason)

theorem empty {t' : PendingTable κ ε} {call : PendingCall κ ε} {answer : PendingAnswer}
    (h : t.Follows call answer t') (hempty : t.closed = true → t.size = 0)
    (hclosed : t'.closed = true) : t'.size = 0 := by
  rcases h.emptied hclosed with hbefore | hafter
  · have hsize := h.size
    rw [hempty hbefore, h.refused hbefore] at hsize
    simp at hsize
    omega
  · exact hafter

end Follows

/-- What every operation answers tells what waits afterwards and what the counters are. -/
theorem Sharded.follows {t : PendingTable κ ε} (h : t.Sharded) (call : PendingCall κ ε) :
    t.Follows call (t.perform call).1 (t.perform call).2.2 := by
  cases call with
  | allocate =>
    exact
      { registered := rfl, completed := rfl, failed := rfl, cancelled := rfl, dropped := rfl
        size := rfl, closed := fun hclosed => hclosed, refused := fun _ => rfl
        emptied := Or.inl }
  | register id request => exact .register h id request
  | complete id result => exact .complete h id result
  | fail id fault => exact .fail h id fault
  | cancelAll reason => exact .cancelAll t reason
  | contains id => exact .still t rfl rfl rfl rfl rfl
  | size => exact .still t rfl rfl rfl rfl rfl
  | isClosed => exact .still t rfl rfl rfl rfl rfl
  | stats => exact .still t rfl rfl rfl rfl rfl

end PendingTable

section Converse

variable {m : Type → Type} [Monad m] {η τ : Type}

namespace Fabric

/-- Asks the table of a router for one operation. -/
def perform (f : Fabric m κ ε η) : PendingCall κ ε → m PendingAnswer
  | .allocate => f.router.step fun r =>
    let (id, table) := r.table.allocate
    (.id id, { r with table })
  | .register id request => f.router.step fun r =>
    let (answer, table) := r.table.register id request
    (.done answer, { r with table })
  | .complete id result => return .flag (← f.complete id result)
  | .fail id fault => return .flag (← f.fail id fault)
  | .cancelAll reason => return .count (← f.cancelAll reason)
  | .contains id => return .flag ((← f.router.get).table.contains id)
  | .size => return .count (← f.router.get).table.size
  | .isClosed => return .flag (← f.router.get).table.closed
  | .stats => return .stats (← f.router.get).table.stats

/-- Asks the table of a router for several operations, one after the other, and says what each of
them answered. -/
def converse (f : Fabric m κ ε η) :
    List (PendingCall κ ε) → m (List (PendingCall κ ε × PendingAnswer))
  | [] => return []
  | call :: calls => do
    let answer ← f.perform call
    let log ← f.converse calls
    return (call, answer) :: log

/-- A router whose executors have a state of their own. They do with a delivery what they like, and
may refuse it; nobody asks which. -/
def ofExecutors (take : Delivery κ ε → τ → Except Fault Unit × τ) :
    Fabric (StateM (Router κ ε Empty × τ)) κ ε Empty where
  router := .part (τ := Router κ ε Empty × τ) Prod.fst fun s r => (r, s.2)
  submit d := modify fun s => (s.1, (take d s.2).2)
  forward := nofun

variable (take : Delivery κ ε → τ → Except Fault Unit × τ)

theorem router_submitAll (deliveries : List (Delivery κ ε)) (s : Router κ ε Empty × τ) :
    ((deliveries.forM (ofExecutors take).submit).run s).2.1 = s.1 := by
  induction deliveries generalizing s with
  | nil => rfl
  | cons d deliveries ih => exact ih _

/-- An operation of the table that makes deliveries answers and leaves the table as it would
without executors. -/
theorem table_onTable {α : Type}
    (op : PendingTable κ ε → α × List (Delivery κ ε) × PendingTable κ ε)
    (s : Router κ ε Empty × τ) :
    (((ofExecutors take).onTable op).run s).1 = (op s.1.table).1 ∧
      (((ofExecutors take).onTable op).run s).2.1.table = (op s.1.table).2.2 :=
  ⟨rfl, congrArg Router.table (router_submitAll take (op s.1.table).2.1 _)⟩

theorem table_perform (call : PendingCall κ ε) (s : Router κ ε Empty × τ) :
    (((ofExecutors take).perform call).run s).1 = (s.1.table.perform call).1 ∧
      (((ofExecutors take).perform call).run s).2.1.table = (s.1.table.perform call).2.2 := by
  cases call with
  | complete id result =>
    obtain ⟨hanswer, htable⟩ := table_onTable take (·.complete id result) s
    exact ⟨congrArg PendingAnswer.flag hanswer, htable⟩
  | fail id fault =>
    obtain ⟨hanswer, htable⟩ := table_onTable take (·.fail id fault) s
    exact ⟨congrArg PendingAnswer.flag hanswer, htable⟩
  | cancelAll reason =>
    obtain ⟨hanswer, htable⟩ := table_onTable take (·.cancelAll reason) s
    exact ⟨congrArg PendingAnswer.count hanswer, htable⟩
  | allocate => exact ⟨rfl, rfl⟩
  | register id request => exact ⟨rfl, rfl⟩
  | contains id => exact ⟨rfl, rfl⟩
  | size => exact ⟨rfl, rfl⟩
  | isClosed => exact ⟨rfl, rfl⟩
  | stats => exact ⟨rfl, rfl⟩

end Fabric

end Converse

namespace PendingTable

/-- A table whose counters are those of a log of calls with their answers, and add up with what
waits in it. -/
structure Balanced (t : PendingTable κ ε) (log : List (PendingCall κ ε × PendingAnswer)) :
    Prop where
  sharded : t.Sharded
  registered : t.stats.registered = log.countP fun e => e.1.registers e.2
  completed : t.stats.completed = log.countP fun e => e.1.completes e.2
  failed : t.stats.failed = log.countP fun e => e.1.fails e.2
  cancelled : t.stats.cancelled = (log.map fun e => e.1.cancels e.2).sum
  dropped : t.stats.dropped = log.countP fun e => e.1.drops e.2
  sum : t.stats.registered =
    t.stats.completed + t.stats.failed + t.stats.cancelled + t.size
  empty : t.closed = true → t.size = 0

theorem balanced_ofShards (shards : Nat) : (ofShards shards : PendingTable κ ε).Balanced [] where
  sharded := sharded_ofShards shards
  registered := rfl
  completed := rfl
  failed := rfl
  cancelled := rfl
  dropped := rfl
  sum := by rw [size_ofShards]; rfl
  empty _ := size_ofShards shards

namespace Balanced

variable {t : PendingTable κ ε} {log : List (PendingCall κ ε × PendingAnswer)}

/-- One more call keeps the balance. -/
theorem perform (h : t.Balanced log) (call : PendingCall κ ε) :
    (t.perform call).2.2.Balanced (log ++ [(call, (t.perform call).1)]) := by
  have hf := h.sharded.follows call
  have hsum := h.sum
  have hsize := hf.size
  refine
    { sharded := h.sharded.perform call
      registered := ?_, completed := ?_, failed := ?_, cancelled := ?_, dropped := ?_
      sum := ?_, empty := ?_ }
  · rw [hf.registered, h.registered, List.countP_append, List.countP_singleton]
  · rw [hf.completed, h.completed, List.countP_append, List.countP_singleton]
  · rw [hf.failed, h.failed, List.countP_append, List.countP_singleton]
  · rw [hf.cancelled, h.cancelled, List.map_append, List.sum_append, List.map_singleton,
      List.sum_singleton]
  · rw [hf.dropped, h.dropped, List.countP_append, List.countP_singleton]
  · rw [hf.registered, hf.completed, hf.failed, hf.cancelled]
    omega
  · exact hf.empty h.empty

/-- Whatever is asked, one operation after the other, the balance is kept, and a table that was
closed still is. -/
theorem converse {τ : Type} (take : Delivery κ ε → τ → Except Fault Unit × τ)
    (calls : List (PendingCall κ ε)) {s : Router κ ε Empty × τ}
    (h : s.1.table.Balanced log) :
    let run := ((Fabric.ofExecutors take).converse calls).run s
    run.2.1.table.Balanced (log ++ run.1) ∧ run.1.map Prod.fst = calls ∧
      (s.1.table.closed = true → run.2.1.table.closed = true) := by
  induction calls generalizing s log with
  | nil =>
    refine ⟨?_, rfl, fun hclosed => hclosed⟩
    change s.1.table.Balanced (log ++ [])
    rw [List.append_nil]
    exact h
  | cons call calls ih =>
    obtain ⟨hanswer, htable⟩ := Fabric.table_perform take call s
    have hbalanced := h.perform call
    rw [← hanswer, ← htable] at hbalanced
    obtain ⟨hafter, hcalls, hclosed⟩ := ih hbalanced
    rw [List.append_assoc] at hafter
    refine ⟨hafter, congrArg (call :: ·) hcalls, fun hbefore => hclosed ?_⟩
    rw [htable]
    exact (h.sharded.follows call).closed hbefore

end Balanced

/-- A closed table refuses every registration and stays as it is. -/
theorem register_of_closed {t : PendingTable κ ε} (h : t.closed = true) (id : RequestId)
    (request : PendingRequest κ ε) :
    t.register id request = (.error (.dispatchFailure "pending table is closed"), t) := by
  rw [register, if_pos h]

/-- Whatever a new table is asked, and whatever executors do with what they are handed: what was
registered is what was completed, failed or cancelled and what still waits, and every counter is
what the answers say. No counter gets beyond the number of calls. A fault that finds no request and
a result that is not final but finds one leave the counters alone. Once a table is closed nothing
waits in it, and that stays so: it refuses every registration and is left as it was. -/
theorem accounting_balances {τ : Type} (take : Delivery κ ε → τ → Except Fault Unit × τ)
    (shards : Nat) (executors : τ) (calls : List (PendingCall κ ε)) :
    let run := ((Fabric.ofExecutors take).converse calls).run
      ({ table := .ofShards shards }, executors)
    let t := run.2.1.table
    run.1.map Prod.fst = calls ∧ t.Balanced run.1 ∧
      t.stats.registered ≤ calls.length ∧ t.stats.dropped ≤ calls.length ∧
      (∀ id fault, (t.fail id fault).1 = false → (t.fail id fault).2.2 = t) ∧
      (∀ id result, result.isFinal = false → (t.complete id result).1 = true →
        (t.complete id result).2.2 = t) ∧
      (t.closed = true → ∀ later,
        let after := (((Fabric.ofExecutors take).converse later).run run.2).2.1.table
        after.closed = true ∧ after.size = 0 ∧ ∀ id request, after.register id request =
          (.error (.dispatchFailure "pending table is closed"), after)) := by
  intro run t
  obtain ⟨hbalanced, hcalls, -⟩ := Balanced.converse take calls
    (s := ({ table := .ofShards shards }, executors)) (balanced_ofShards shards)
  have hlength : run.1.length = calls.length := by
    rw [← List.length_map Prod.fst]
    exact congrArg List.length hcalls
  rw [← hlength]
  refine ⟨hcalls, hbalanced, ?_, ?_, ?_, ?_, ?_⟩
  · exact Nat.le_trans (Nat.le_of_eq hbalanced.registered) List.countP_le_length
  · exact Nat.le_trans (Nat.le_of_eq hbalanced.dropped) List.countP_le_length
  · intro id fault hmissed
    cases hf : t.find? id with
    | none => rw [fail_of_none hf]
    | some request =>
      rw [fail_of_some hf] at hmissed
      cases hmissed
  · intro id result hinterim hfound
    cases hf : t.find? id with
    | none =>
      rw [complete_of_none hf] at hfound
      cases hfound
    | some request => rw [complete_of_interim hf hinterim]
  · intro hclosed later after
    obtain ⟨hafter, -, hstill⟩ := hbalanced.converse take later (s := run.2)
    exact ⟨hstill hclosed, hafter.empty (hstill hclosed),
      fun id request => register_of_closed (hstill hclosed) id request⟩

end PendingTable
end Switchboard
