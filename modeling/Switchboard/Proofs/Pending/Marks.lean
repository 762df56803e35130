import Switchboard.Proofs.Pending.Agreement
/-!
# Marked registrations

A table never looks into the continuations that it keeps. So continuations may be replaced by
others, in particular marked with the position of the call that registered them, and nothing
changes but the marks. A marked history tells for every delivery which registration it belongs to.
-/
namespace Switchboard

variable {κ κ' ε : Type}

/-- The request with another continuation. -/
def PendingRequest.map (f : κ → κ') (request : PendingRequest κ ε) : PendingRequest κ' ε :=
  { continuation := f request.continuation
    executor := request.executor
    streaming := request.streaming }

/-- The delivery to another continuation. -/
def Delivery.map (f : κ → κ') (d : Delivery κ ε) : Delivery κ' ε :=
  { id := d.id
    continuation := f d.continuation
    executor := d.executor
    outcome := d.outcome
    terminal := d.terminal }

/-- The call with another continuation, if it registers one. -/
def PendingCall.map (f : κ → κ') : PendingCall κ ε → PendingCall κ' ε
  | .allocate => .allocate
  | .register id request => .register id (request.map f)
  | .complete id result => .complete id result
  | .fail id fault => .fail id fault
  | .cancelAll reason => .cancelAll reason
  | .contains id => .contains id
  | .size => .size
  | .isClosed => .isClosed
  | .stats => .stats

/-- The entry of a history with other continuations. -/
def PendingEntry.map (f : κ → κ') (entry : PendingEntry κ ε) : PendingEntry κ' ε :=
  { call := entry.call.map f
    answer := entry.answer
    deliveries := entry.deliveries.map (Delivery.map f) }

namespace PendingLedger

/-- The ledger with other continuations. -/
def map (f : κ → κ') (l : PendingLedger κ ε) : PendingLedger κ' ε :=
  { entries := l.entries.map fun entry => (entry.1, entry.2.map f)
    closed := l.closed
    nextId := l.nextId
    stats := l.stats }

theorem find?_map (f : κ → κ') (l : PendingLedger κ ε) (id : RequestId) :
    (l.map f).find? id = (l.find? id).map (PendingRequest.map f) := by
  simp only [PendingLedger.find?, map, List.find?_map, Option.map_map]
  rfl

theorem contains_map (f : κ → κ') (l : PendingLedger κ ε) (id : RequestId) :
    (l.map f).contains id = l.contains id := by
  simp [PendingLedger.contains, find?_map]

theorem erase_map (f : κ → κ') (l : PendingLedger κ ε) (id : RequestId) :
    (l.map f).erase id = (l.erase id).map f := by
  simp only [erase, map, List.filter_map]
  rfl

/-- A ledger does with other continuations what it does with its own. -/
theorem perform_map (f : κ → κ') (l : PendingLedger κ ε) (call : PendingCall κ ε) :
    (l.map f).perform (call.map f) =
      ((l.perform call).1, (l.perform call).2.1.map (Delivery.map f),
        (l.perform call).2.2.map f) := by
  cases call with
  | allocate => rfl
  | register id request =>
    have hclosed : (l.map f).closed = l.closed := rfl
    simp only [perform, PendingCall.map, register, contains_map, hclosed]
    split
    · rfl
    · split <;> rfl
  | complete id result =>
    simp only [perform, PendingCall.map, complete, find?_map]
    cases l.find? id with
    | none => rfl
    | some request =>
      cases result.isFinal with
      | true =>
        simp only [Option.map_some, erase_map]
        rfl
      | false =>
        simp only [Option.map_some, PendingRequest.map]
        split <;> rfl
  | fail id fault =>
    simp only [perform, PendingCall.map, fail, find?_map]
    cases l.find? id with
    | none => rfl
    | some request =>
      simp only [Option.map_some, erase_map]
      rfl
  | cancelAll reason =>
    have hsort := List.map_mergeSort (r := fun a b => decide (a.1.value ≤ b.1.value))
      (s := fun a b => decide (a.1.value ≤ b.1.value))
      (f := fun entry : RequestId × PendingRequest κ ε => (entry.1, entry.2.map f))
      (l := l.entries) (fun a _ b _ => rfl)
    simp only [perform, PendingCall.map, cancelAll, size, map, ← hsort, List.map_map,
      List.length_map]
    rfl
  | contains id => simp only [perform, PendingCall.map, contains_map]; rfl
  | size => simp [perform, PendingCall.map, size, map]
  | isClosed => rfl
  | stats => rfl

end PendingLedger

namespace PendingCall

/-- A history with other continuations is the history with the continuations replaced. -/
theorem history_map (f : κ → κ') (l : PendingLedger κ ε) (calls : List (PendingCall κ ε)) :
    history PendingLedger.perform (l.map f) (calls.map (PendingCall.map f)) =
      ((history PendingLedger.perform l calls).1.map (PendingEntry.map f),
        (history PendingLedger.perform l calls).2.map f) := by
  induction calls generalizing l with
  | nil => rfl
  | cons call calls ih =>
    simp only [List.map_cons, history, PendingLedger.perform_map, ih]
    rfl

/-- Each call with the position at which it stands as a mark on what it registers. -/
def numbered (calls : List (PendingCall κ ε)) : List (PendingCall (κ × Nat) ε) :=
  calls.mapIdx fun i call => call.map (·, i)

/-- Forgetting the marks gives the calls back. -/
@[simp] theorem map_fst_numbered (calls : List (PendingCall κ ε)) :
    (numbered calls).map (PendingCall.map Prod.fst) = calls := by
  apply List.ext_getElem
  · simp [numbered]
  · intro i hi hi'
    simp only [numbered, List.getElem_map, List.getElem_mapIdx]
    cases calls[i] <;> rfl

end PendingCall

namespace PendingTable

/-- The history of calls on a new table, and the table after them. Every registration is marked
with the position of its call, and so are all deliveries made for it. -/
def markedHistory (shards : Nat) (calls : List (PendingCall κ ε)) :
    List (PendingEntry (κ × Nat) ε) × PendingTable (κ × Nat) ε :=
  PendingCall.history perform (ofShards shards) (PendingCall.numbered calls)

/-- The marked history is the history of the same calls, but for the marks. -/
theorem map_fst_markedHistory (shards : Nat) (calls : List (PendingCall κ ε)) :
    (markedHistory shards calls).1.map (PendingEntry.map Prod.fst) =
      (PendingCall.history perform (ofShards shards : PendingTable κ ε) calls).1 := by
  have hmap := PendingCall.history_map Prod.fst ({} : PendingLedger (κ × Nat) ε)
    (PendingCall.numbered calls)
  rw [PendingCall.map_fst_numbered] at hmap
  rw [markedHistory, ((agrees_ofShards shards).history _).1, ((agrees_ofShards shards).history _).1]
  exact (congrArg Prod.fst hmap).symm

end PendingTable
end Switchboard
