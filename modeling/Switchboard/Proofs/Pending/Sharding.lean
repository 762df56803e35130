import Mathlib.Data.List.Perm.Basic
import Switchboard.Proofs.Pending.Agreement
/-!
# Sharding is unobservable

A shard may show its entries in any order, and in another one at every operation. Whatever the
number of shards and whatever these orders, a table answers and hands out what a ledger does, which
has neither. What is cancelled is delivered in strictly ascending order of ids.
-/
namespace Switchboard

variable {κ ε : Type}

/-- An order in which the entries of a shard are met. -/
structure ShardOrder (κ ε : Type) where
  arrange : Shard κ ε → Shard κ ε
  perm : ∀ shard, (arrange shard).Perm shard

namespace PendingTable

/-- The same table with the entries of each shard in an order of its own. -/
def arrange (t : PendingTable κ ε) (orders : Nat → ShardOrder κ ε) : PendingTable κ ε :=
  { t with
    shards := t.shards.mapIdx fun k shard => (orders k).arrange shard
    shards_nonempty := by rw [Array.size_mapIdx]; exact t.shards_nonempty }

/-- The history of operations on a table, and the table after them. Before each operation the
entries of every shard fall into some order. -/
def shuffledHistory (t : PendingTable κ ε) :
    List ((Nat → ShardOrder κ ε) × PendingCall κ ε) → List (PendingEntry κ ε) × PendingTable κ ε
  | [] => ([], t)
  | (orders, call) :: calls =>
    let (answer, deliveries, t) := (t.arrange orders).perform call
    let (entries, t) := shuffledHistory t calls
    ({ call, answer, deliveries } :: entries, t)

section Arrange

variable (t : PendingTable κ ε) (orders : Nat → ShardOrder κ ε)

@[simp] theorem size_shards_arrange : (t.arrange orders).shards.size = t.shards.size :=
  Array.size_mapIdx

@[simp] theorem indexOf_arrange (id : RequestId) : (t.arrange orders).indexOf id = t.indexOf id := by
  rw [indexOf, indexOf, size_shards_arrange]

theorem perm_getElem_arrange (k : Nat) (h : k < (t.arrange orders).shards.size)
    (h' : k < t.shards.size) : ((t.arrange orders).shards[k]).Perm t.shards[k] := by
  simp only [arrange, Array.getElem_mapIdx]
  exact (orders k).perm _

/-- The entries are the same, in another order. -/
theorem entries_arrange : (t.arrange orders).entries.Perm t.entries := by
  apply List.Perm.flatten_congr
  rw [List.forall₂_iff_get]
  refine ⟨by simp, fun k h h' => ?_⟩
  simp only [List.get_eq_getElem, Array.getElem_toList]
  exact t.perm_getElem_arrange orders k (by simpa using h) (by simpa using h')

variable {t}

theorem Sharded.arrange (ht : t.Sharded) : (t.arrange orders).Sharded where
  placed k hk e he := by
    have hk' : k < t.shards.size := by simpa using hk
    rw [indexOf_arrange]
    exact ht.placed k hk' e ((t.perm_getElem_arrange orders k hk hk').mem_iff.mp he)
  distinct := ((t.entries_arrange orders).map Prod.fst).nodup_iff.mpr ht.distinct

/-- A ledger knows nothing of the order. -/
theorem Agrees.arrange {l : PendingLedger κ ε} (h : t.Agrees l) : (t.arrange orders).Agrees l where
  sharded := h.sharded.arrange orders
  entries := (t.entries_arrange orders).trans h.entries
  closed := h.closed
  nextId := h.nextId
  stats := h.stats

end Arrange

/-- Agreeing tables and ledgers have the same history, whatever the order in the shards. -/
theorem Agrees.shuffledHistory {t : PendingTable κ ε} {l : PendingLedger κ ε} (h : t.Agrees l)
    (calls : List ((Nat → ShardOrder κ ε) × PendingCall κ ε)) :
    (t.shuffledHistory calls).1 =
        (PendingCall.history PendingLedger.perform l (calls.map Prod.snd)).1 ∧
      (t.shuffledHistory calls).2.Agrees
        (PendingCall.history PendingLedger.perform l (calls.map Prod.snd)).2 := by
  induction calls generalizing t l with
  | nil => exact ⟨rfl, h⟩
  | cons step calls ih =>
    obtain ⟨orders, call⟩ := step
    obtain ⟨hanswer, hout, hafter⟩ := (h.arrange orders).perform call
    obtain ⟨hentries, hend⟩ := ih hafter
    simp only [PendingTable.shuffledHistory, List.map_cons, PendingCall.history]
    rw [hanswer, hout, hentries]
    exact ⟨rfl, hend⟩

section Size

variable (t : PendingTable κ ε)

@[simp] theorem size_shards_modifyShard (id : RequestId) (f : Shard κ ε → Shard κ ε) :
    (t.modifyShard id f).shards.size = t.shards.size := Array.size_modify

/-- No operation changes the number of shards. -/
theorem size_shards_perform (call : PendingCall κ ε) :
    (t.perform call).2.2.shards.size = t.shards.size := by
  have herase (id : RequestId) : (t.erase id).shards.size = t.shards.size :=
    t.size_shards_modifyShard id _
  cases call with
  | register id request =>
    simp only [perform, register]
    split
    · rfl
    · split
      · rfl
      · exact t.size_shards_modifyShard id _
  | complete id result =>
    simp only [perform, complete]
    split
    · rfl
    · split
      · exact herase id
      · split <;> rfl
  | fail id fault =>
    simp only [perform, fail]
    split
    · rfl
    · exact herase id
  | cancelAll reason => exact Array.size_map
  | allocate => rfl
  | contains id => rfl
  | size => rfl
  | isClosed => rfl
  | stats => rfl

theorem size_shards_shuffledHistory (calls : List ((Nat → ShardOrder κ ε) × PendingCall κ ε)) :
    (t.shuffledHistory calls).2.shards.size = t.shards.size := by
  induction calls generalizing t with
  | nil => rfl
  | cons step calls ih =>
    obtain ⟨orders, call⟩ := step
    calc ((t.arrange orders).perform call).2.2.shuffledHistory calls |>.2.shards.size
      _ = ((t.arrange orders).perform call).2.2.shards.size := ih _
      _ = (t.arrange orders).shards.size := size_shards_perform _ call
      _ = t.shards.size := t.size_shards_arrange orders

end Size

/-- What is cancelled is delivered in strictly ascending order of ids. -/
theorem Sharded.ascending_cancelAll {t : PendingTable κ ε} (h : t.Sharded) (reason : String) :
    (t.cancelAll reason).2.1.Pairwise (·.id.value < ·.id.value) := by
  have hdistinct : (t.pending.map Prod.fst).Nodup :=
    (t.pending_perm.map Prod.fst).nodup_iff.mpr h.distinct
  have hsorted := (pairwise_mergeSort t.entries).and (List.pairwise_map.mp hdistinct)
  refine List.pairwise_map.mpr (hsorted.imp ?_)
  rintro a b ⟨hle, hne⟩
  refine UInt64.lt_of_le_of_ne (of_decide_eq_true hle) fun heq => hne ?_
  exact congrArg RequestId.mk heq

/-- Whatever the number of shards, at least one, and in whatever order every shard shows its
entries at each operation, a table answers all operations and hands out all deliveries as a ledger
does, and counts alike. Every id has a shard, no id waits twice, and what is cancelled is delivered
in strictly ascending order of ids. -/
theorem sharding_unobservable (shards : Nat)
    (calls : List ((Nat → ShardOrder κ ε) × PendingCall κ ε)) :
    let shuffled := (ofShards shards : PendingTable κ ε).shuffledHistory calls
    let plain := PendingCall.history PendingLedger.perform {} (calls.map Prod.snd)
    shuffled.1 = plain.1 ∧ shuffled.2.stats = plain.2.stats ∧
      shuffled.2.shards.size = max shards 1 ∧
      (∀ id, shuffled.2.indexOf id < shuffled.2.shards.size ∧
        shuffled.2.find? id = plain.2.find? id) ∧
      (shuffled.2.entries.map Prod.fst).Nodup ∧
      ∀ reason, (shuffled.2.cancelAll reason).2.1.Pairwise (·.id.value < ·.id.value) := by
  intro shuffled plain
  obtain ⟨hentries, hagrees⟩ := (agrees_ofShards shards).shuffledHistory calls
  refine ⟨hentries, hagrees.stats, ?_, fun id => ⟨indexOf_lt _ id, hagrees.find?_eq id⟩,
    hagrees.sharded.distinct, hagrees.sharded.ascending_cancelAll⟩
  rw [size_shards_shuffledHistory]
  exact Array.size_replicate

end PendingTable
end Switchboard
