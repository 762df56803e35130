import Switchboard.Pending.History
import Switchboard.Proofs.Pending.Shards
/-!
# Tables agree with ledgers

A table and a ledger that hold the same requests answer every operation alike and hand out the
same deliveries in the same order, whatever the number of shards. So what is proved of the one list
of a ledger holds of a table.
-/
namespace Switchboard

variable {κ ε : Type}

/-- A table holds the requests of a ledger, spread over its shards. -/
structure PendingTable.Agrees (t : PendingTable κ ε) (l : PendingLedger κ ε) : Prop where
  sharded : t.Sharded
  entries : t.entries.Perm l.entries
  closed : t.closed = l.closed
  nextId : t.nextId = l.nextId
  stats : t.stats = l.stats

/-- No id stands twice in a ledger. -/
def PendingLedger.Distinct (l : PendingLedger κ ε) : Prop := (l.entries.map Prod.fst).Nodup

namespace PendingLedger

/-- Looking an id up finds exactly the entry of that id. -/
theorem Distinct.find?_eq_some_iff {l : PendingLedger κ ε} (h : l.Distinct) (id : RequestId)
    (request : PendingRequest κ ε) :
    l.find? id = some request ↔ (id, request) ∈ l.entries := by
  constructor
  · intro hf
    obtain ⟨e, he, rfl⟩ := Option.map_eq_some_iff.mp hf
    have hid : e.1 = id := by simpa using List.find?_some he
    subst hid
    exact List.mem_of_find?_eq_some he
  · intro hmem
    cases hf : l.entries.find? (·.1 = id) with
    | none => simpa using List.find?_eq_none.mp hf _ hmem
    | some e =>
      have hid : e.1 = id := by simpa using List.find?_some hf
      have heq := List.inj_on_of_nodup_map h (List.mem_of_find?_eq_some hf) hmem hid
      simp [PendingLedger.find?, hf, heq]

theorem find?_eq_none_iff (l : PendingLedger κ ε) (id : RequestId) :
    l.find? id = none ↔ id ∉ l.entries.map Prod.fst := by
  simp only [PendingLedger.find?, Option.map_eq_none_iff, List.find?_eq_none, List.mem_map,
    decide_eq_true_eq, not_exists, not_and]

end PendingLedger

namespace PendingTable

/-- Sorting puts requests in ascending order of their ids. -/
theorem pairwise_mergeSort (l : List (RequestId × PendingRequest κ ε)) :
    (l.mergeSort fun a b => a.1.value ≤ b.1.value).Pairwise
      fun a b => decide (a.1.value ≤ b.1.value) = true := by
  apply List.pairwise_mergeSort
  · intro a b c hab hbc
    rw [decide_eq_true_eq] at hab hbc ⊢
    exact UInt64.le_trans hab hbc
  · intro a b
    simpa using UInt64.le_total a.1.value b.1.value

/-- Requests with distinct ids have one ascending order. -/
theorem mergeSort_eq_of_perm {first second : List (RequestId × PendingRequest κ ε)}
    (hperm : first.Perm second) (hdistinct : (first.map Prod.fst).Nodup) :
    first.mergeSort (fun a b => a.1.value ≤ b.1.value) =
      second.mergeSort (fun a b => a.1.value ≤ b.1.value) := by
  refine List.Perm.eq_of_pairwise ?_ (pairwise_mergeSort first) (pairwise_mergeSort second)
    ((List.mergeSort_perm _ _).trans (hperm.trans (List.mergeSort_perm _ _).symm))
  intro a b ha hb hab hba
  rw [decide_eq_true_eq] at hab hba
  have hid : a.1 = b.1 := by
    have := UInt64.le_antisymm hab hba
    cases ha' : a.1; cases hb' : b.1; simp_all
  exact List.inj_on_of_nodup_map hdistinct ((List.mergeSort_perm _ _).mem_iff.mp ha)
    (hperm.mem_iff.mpr ((List.mergeSort_perm _ _).mem_iff.mp hb)) hid

namespace Agrees

variable {t : PendingTable κ ε} {l : PendingLedger κ ε}

theorem distinct (h : t.Agrees l) : l.Distinct :=
  (h.entries.map Prod.fst).nodup_iff.mp h.sharded.distinct

theorem find?_eq (h : t.Agrees l) (id : RequestId) : t.find? id = l.find? id := by
  apply Option.ext
  intro request
  rw [h.sharded.find?_eq_some_iff, h.distinct.find?_eq_some_iff, h.entries.mem_iff]

theorem contains_eq (h : t.Agrees l) (id : RequestId) : t.contains id = l.contains id := by
  rw [PendingTable.contains, PendingLedger.contains, h.find?_eq]

theorem size_eq (h : t.Agrees l) : t.size = l.size := by
  rw [← length_entries, h.entries.length_eq, PendingLedger.size]

theorem pending_eq (h : t.Agrees l) :
    t.pending = l.entries.mergeSort fun a b => a.1.value ≤ b.1.value :=
  mergeSort_eq_of_perm h.entries h.sharded.distinct

theorem erase (h : t.Agrees l) (id : RequestId) : (t.erase id).Agrees (l.erase id) where
  sharded := h.sharded.erase id
  entries := by
    rw [h.sharded.entries_erase]
    exact h.entries.filter _
  closed := h.closed
  nextId := h.nextId
  stats := h.stats

/-- Counting alike keeps the agreement. -/
theorem count (h : t.Agrees l) (f : TableStats → TableStats) :
    (t.count f).Agrees { l with stats := f l.stats } where
  sharded := h.sharded.count f
  entries := h.entries
  closed := h.closed
  nextId := h.nextId
  stats := congrArg f h.stats

theorem record (h : t.Agrees l) (continuation : κ) : (t.record continuation).Agrees l :=
  ⟨h.sharded.record continuation, h.entries, h.closed, h.nextId, h.stats⟩

theorem allocate (h : t.Agrees l) :
    t.allocate.1 = l.allocate.1 ∧ t.allocate.2.Agrees l.allocate.2 :=
  ⟨congrArg RequestId.mk h.nextId, h.sharded.allocate, h.entries, h.closed,
    congrArg (· + 1) h.nextId, h.stats⟩

theorem insert (h : t.Agrees l) {id : RequestId} (hnew : t.find? id = none)
    (request : PendingRequest κ ε) :
    (t.modifyShard id ((id, request) :: ·)).Agrees
      { l with entries := (id, request) :: l.entries } where
  sharded := h.sharded.insert hnew request
  entries := (h.sharded.entries_insert id request).trans (h.entries.cons _)
  closed := h.closed
  nextId := h.nextId
  stats := h.stats

theorem register (h : t.Agrees l) (id : RequestId) (request : PendingRequest κ ε) :
    (t.register id request).1 = (l.register id request).1 ∧
      (t.register id request).2.Agrees (l.register id request).2 := by
  rw [PendingTable.register, PendingLedger.register, h.closed, h.contains_eq]
  split
  · exact ⟨rfl, h⟩
  · split
    · exact ⟨rfl, h⟩
    · next hnew =>
      have hnone : t.find? id = none := by simpa [h.find?_eq, PendingLedger.contains] using hnew
      exact ⟨rfl, ((h.insert hnone request).record request.continuation).count fun s =>
        { s with registered := s.registered + 1 }⟩

theorem complete (h : t.Agrees l) (id : RequestId) (result : CmdResult) :
    (t.complete id result).1 = (l.complete id result).1 ∧
      (t.complete id result).2.1 = (l.complete id result).2.1 ∧
      (t.complete id result).2.2.Agrees (l.complete id result).2.2 := by
  rw [PendingTable.complete, PendingLedger.complete, h.find?_eq]
  cases l.find? id with
  | none => exact ⟨rfl, rfl, h.count fun s => { s with dropped := s.dropped + 1 }⟩
  | some request =>
    cases hfinal : result.isFinal with
    | true =>
      simp only [if_true]
      exact ⟨trivial, trivial, (h.erase id).count fun s =>
        { s with completed := s.completed + 1 }⟩
    | false => cases hstream : request.streaming <;> simpa [hstream] using h

theorem fail (h : t.Agrees l) (id : RequestId) (fault : Fault) :
    (t.fail id fault).1 = (l.fail id fault).1 ∧
      (t.fail id fault).2.1 = (l.fail id fault).2.1 ∧
      (t.fail id fault).2.2.Agrees (l.fail id fault).2.2 := by
  rw [PendingTable.fail, PendingLedger.fail, h.find?_eq]
  cases l.find? id with
  | none => exact ⟨rfl, rfl, h⟩
  | some request =>
    exact ⟨rfl, rfl, (h.erase id).count fun s => { s with failed := s.failed + 1 }⟩

theorem cancelAll (h : t.Agrees l) (reason : String) :
    (t.cancelAll reason).1 = (l.cancelAll reason).1 ∧
      (t.cancelAll reason).2.1 = (l.cancelAll reason).2.1 ∧
      (t.cancelAll reason).2.2.Agrees (l.cancelAll reason).2.2 := by
  have hsize : t.pending.length = l.size := by
    rw [t.pending_perm.length_eq, length_entries, h.size_eq]
  refine ⟨hsize, ?_, sharded_cancelAll t reason, ?_, rfl, h.nextId, ?_⟩
  · simp only [PendingTable.cancelAll, PendingLedger.cancelAll, h.pending_eq]
  · rw [entries_cancelAll]
    rfl
  · simp only [PendingTable.cancelAll, PendingLedger.cancelAll, h.stats, hsize]

/-- Agreeing tables and ledgers answer a call alike, hand out the same, and agree afterwards. -/
theorem perform (h : t.Agrees l) (call : PendingCall κ ε) :
    (t.perform call).1 = (l.perform call).1 ∧
      (t.perform call).2.1 = (l.perform call).2.1 ∧
      (t.perform call).2.2.Agrees (l.perform call).2.2 := by
  cases call with
  | allocate => exact ⟨congrArg _ h.allocate.1, rfl, h.allocate.2⟩
  | register id request =>
    exact ⟨congrArg _ (h.register id request).1, rfl, (h.register id request).2⟩
  | complete id result =>
    obtain ⟨hanswer, hout, hafter⟩ := h.complete id result
    exact ⟨congrArg _ hanswer, hout, hafter⟩
  | fail id fault =>
    obtain ⟨hanswer, hout, hafter⟩ := h.fail id fault
    exact ⟨congrArg _ hanswer, hout, hafter⟩
  | cancelAll reason =>
    obtain ⟨hanswer, hout, hafter⟩ := h.cancelAll reason
    exact ⟨congrArg _ hanswer, hout, hafter⟩
  | contains id => exact ⟨congrArg _ (h.contains_eq id), rfl, h⟩
  | size => exact ⟨congrArg _ h.size_eq, rfl, h⟩
  | isClosed => exact ⟨congrArg _ h.closed, rfl, h⟩
  | stats => exact ⟨congrArg _ h.stats, rfl, h⟩

/-- Agreeing tables and ledgers have the same history. -/
theorem history (h : t.Agrees l) (calls : List (PendingCall κ ε)) :
    (PendingCall.history PendingTable.perform t calls).1 =
        (PendingCall.history PendingLedger.perform l calls).1 ∧
      (PendingCall.history PendingTable.perform t calls).2.Agrees
        (PendingCall.history PendingLedger.perform l calls).2 := by
  induction calls generalizing t l with
  | nil => exact ⟨rfl, h⟩
  | cons call calls ih =>
    obtain ⟨hanswer, hout, hafter⟩ := h.perform call
    obtain ⟨hentries, hend⟩ := ih hafter
    simp only [PendingCall.history]
    rw [hanswer, hout, hentries]
    exact ⟨rfl, hend⟩

end Agrees

/-- New tables agree with the empty ledger. -/
theorem agrees_ofShards (shards : Nat) :
    (ofShards shards : PendingTable κ ε).Agrees {} where
  sharded := sharded_ofShards shards
  entries := by rw [entries_ofShards]
  closed := rfl
  nextId := rfl
  stats := rfl

end PendingTable
end Switchboard
