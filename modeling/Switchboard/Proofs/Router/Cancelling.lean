import Switchboard.Proofs.Pending.Balance
import Switchboard.Proofs.Pending.Owed
import Switchboard.Proofs.Pending.Sharding
import Switchboard.Proofs.Router.Station
/-!
# Cancelling everything that waits

What waits in a table can be told from outside: by the registrations that succeeded, and by the
results, faults and cancellations since. Cancelling hands out one ending for each of them, the
smallest id first, whatever the shards and whatever the executors answer. A table that was cancelled
is spent: whatever is asked of it, nothing will ever wait in it again.
-/
namespace Switchboard

variable {κ ε η τ : Type}

namespace PendingEntry

/-- The request that waits under an id after one more call, told by the call and its answer. -/
def leaves (id : RequestId) (waiting : Option (PendingRequest κ ε)) (e : PendingEntry κ ε) :
    Option (PendingRequest κ ε) :=
  match e.call, e.answer with
  | .register other request, .done (.ok ()) => if other = id then some request else waiting
  | call, _ => if (call.ending? id).isSome then none else waiting

/-- The request that waits under an id after a history: the one registered last, unless it was
ended since. -/
def waiting (id : RequestId) (entries : List (PendingEntry κ ε)) : Option (PendingRequest κ ε) :=
  entries.foldl (leaves id) none

end PendingEntry

namespace PendingTable

section Lookup

variable {t : PendingTable κ ε}

/-- What is found under an id does not depend on the order in the shards. -/
theorem Sharded.find?_arrange (h : t.Sharded) (orders : Nat → ShardOrder κ ε) (id : RequestId) :
    (t.arrange orders).find? id = t.find? id := by
  apply Option.ext
  intro request
  calc (t.arrange orders).find? id = some request
    _ ↔ (id, request) ∈ (t.arrange orders).entries :=
      (h.arrange orders).find?_eq_some_iff id request
    _ ↔ (id, request) ∈ t.entries := (t.entries_arrange orders).mem_iff
    _ ↔ t.find? id = some request := (h.find?_eq_some_iff id request).symm

/-- What is found under an id after a call can be told from the call and its answer. -/
theorem Sharded.find?_perform (h : t.Sharded) (call : PendingCall κ ε) (id : RequestId) :
    (t.perform call).2.2.find? id =
      PendingEntry.leaves id (t.find? id) ⟨call, (t.perform call).1, (t.perform call).2.1⟩ := by
  cases call with
  | register other request =>
    change (t.register other request).2.find? id =
      PendingEntry.leaves id (t.find? id) ⟨_, .done (t.register other request).1, []⟩
    rw [PendingTable.register]
    split
    · simp [PendingEntry.leaves, PendingCall.ending?]
    · split
      · simp [PendingEntry.leaves, PendingCall.ending?]
      · refine (find?_add t other request id).trans ?_
        by_cases hid : other = id
        · simp [PendingEntry.leaves, hid]
        · simp [PendingEntry.leaves, hid, Ne.symm hid]
  | complete other result =>
    have hfound : (t.perform (.complete other result)).2.2.find? id = _ :=
      h.find?_complete other id result
    rw [hfound]
    by_cases hid : other = id
    · cases hfinal : result.isFinal <;> simp [PendingEntry.leaves, PendingCall.ending?, hid, hfinal]
    · simp [PendingEntry.leaves, PendingCall.ending?, hid, Ne.symm hid]
  | fail other fault =>
    have hfound : (t.perform (.fail other fault)).2.2.find? id = _ := h.find?_fail other id fault
    rw [hfound]
    by_cases hid : other = id
    · simp [PendingEntry.leaves, PendingCall.ending?, hid]
    · simp [PendingEntry.leaves, PendingCall.ending?, hid, Ne.symm hid]
  | cancelAll reason =>
    have hfound : (t.perform (.cancelAll reason)).2.2.find? id = none :=
      t.find?_cancelAll reason id
    simp [PendingEntry.leaves, PendingCall.ending?, hfound]
  | allocate =>
    change t.find? id = _
    simp [PendingEntry.leaves, PendingCall.ending?]
  | contains other => simp [PendingTable.perform, PendingEntry.leaves, PendingCall.ending?]
  | size => simp [PendingTable.perform, PendingEntry.leaves, PendingCall.ending?]
  | isClosed => simp [PendingTable.perform, PendingEntry.leaves, PendingCall.ending?]
  | stats => simp [PendingTable.perform, PendingEntry.leaves, PendingCall.ending?]

/-- What is found under an id after a history can be told from the history. -/
theorem Sharded.find?_shuffledHistory (h : t.Sharded)
    (calls : List ((Nat → ShardOrder κ ε) × PendingCall κ ε)) (id : RequestId) :
    (t.shuffledHistory calls).2.Sharded ∧ (t.shuffledHistory calls).2.find? id =
      (t.shuffledHistory calls).1.foldl (PendingEntry.leaves id) (t.find? id) := by
  induction calls generalizing t with
  | nil => exact ⟨h, rfl⟩
  | cons step calls ih =>
    obtain ⟨orders, call⟩ := step
    have harranged : (t.arrange orders).Sharded := h.arrange orders
    obtain ⟨hsharded, hfound⟩ := ih (harranged.perform call)
    refine ⟨hsharded, hfound.trans ?_⟩
    rw [harranged.find?_perform, h.find?_arrange]
    rfl

/-- What is found in a table is what waits by its history. -/
theorem find?_eq_waiting (shards : Nat) (calls : List ((Nat → ShardOrder κ ε) × PendingCall κ ε))
    (id : RequestId) :
    ((ofShards shards).shuffledHistory calls).2.find? id =
      PendingEntry.waiting id ((ofShards shards).shuffledHistory calls).1 := by
  have hnew : (ofShards shards : PendingTable κ ε).find? id = none := by
    simp [PendingTable.find?, shardOf, ofShards, Shard.find?]
  rw [((sharded_ofShards shards).find?_shuffledHistory calls id).2, hnew]
  rfl

end Lookup

/-- A table that is closed and holds nothing. -/
structure Spent (t : PendingTable κ ε) : Prop where
  closed : t.closed = true
  empty : t.entries = []

theorem spent_cancelAll (t : PendingTable κ ε) (reason : String) :
    (t.cancelAll reason).2.2.Spent where
  closed := rfl
  empty := t.entries_cancelAll reason

namespace Spent

variable {t : PendingTable κ ε} (h : t.Spent)

include h

theorem size_eq : t.size = 0 := by
  rw [← length_entries, h.empty, List.length_nil]

theorem sharded : t.Sharded where
  placed k hk e he := by
    have hmem : e ∈ t.entries := List.mem_flatten.mpr ⟨_, Array.getElem_mem_toList hk, he⟩
    simp [h.empty] at hmem
  distinct := by simp [h.empty]

/-- There is nothing to cancel. -/
theorem cancelAll_eq (reason : String) : t.cancelAll reason = (0, [], t) := by
  have hpending : t.pending = [] := by
    apply List.Perm.eq_nil
    simpa [h.empty] using t.pending_perm
  have hshards : t.shards.map (fun _ => ([] : Shard κ ε)) = t.shards := by
    apply Array.ext
    · simp
    · intro k hk hk'
      have hshard : t.shards[k] = [] :=
        List.flatten_eq_nil_iff.mp h.empty _ (Array.getElem_mem_toList hk')
      simp [hshard]
  obtain ⟨hclosed, -⟩ := h
  cases t
  simp_all [cancelAll]

theorem arrange (orders : Nat → ShardOrder κ ε) : (t.arrange orders).Spent where
  closed := h.closed
  empty := by
    apply List.Perm.eq_nil
    simpa [h.empty] using t.entries_arrange orders

/-- No operation makes anything wait again. -/
theorem perform (call : PendingCall κ ε) : (t.perform call).2.2.Spent := by
  have hfollows := h.sharded.follows call
  have hclosed := hfollows.closed h.closed
  refine ⟨hclosed, List.eq_nil_of_length_eq_zero ?_⟩
  rw [length_entries]
  exact hfollows.empty (fun _ => h.size_eq) hclosed

theorem shuffledHistory (calls : List ((Nat → ShardOrder κ ε) × PendingCall κ ε)) :
    (t.shuffledHistory calls).2.Spent := by
  induction calls generalizing t with
  | nil => exact h
  | cons step calls ih => exact ih ((h.arrange step.1).perform step.2)

end Spent

end PendingTable

namespace Station

variable [DecidableEq ε]

/-- An executor that takes what it is handed has queued all of it. -/
theorem queuedOn_queued {news : List (Delivery κ ε × Except Fault Unit)} {executor : ε}
    (htakes : ∀ handed ∈ news, handed.1.executor = executor → handed.2 = .ok ()) :
    Delivery.queuedOn executor (news.filterMap queued?) =
      Delivery.queuedOn executor (news.map Prod.fst) := by
  induction news with
  | nil => rfl
  | cons first news ih =>
    obtain ⟨d, answer⟩ := first
    have hrest := ih fun handed hmem => htakes handed (List.mem_cons_of_mem _ hmem)
    simp only [Delivery.queuedOn] at hrest
    by_cases hon : d.executor = executor
    · obtain rfl : answer = .ok () := htakes (d, answer) List.mem_cons_self hon
      simp [Delivery.queuedOn, queued?, hon, hrest]
    · cases answer <;> simp [Delivery.queuedOn, queued?, List.filterMap_cons, hon, hrest]

/-- What it is handed comes behind all that it has queued before. -/
theorem queue_of_append {x y : Station κ ε η τ} {news : List (Delivery κ ε × Except Fault Unit)}
    (h : y.handed = x.handed ++ news) {executor : ε}
    (htakes : ∀ handed ∈ news, handed.1.executor = executor → handed.2 = .ok ()) :
    y.queue executor = x.queue executor ++ Delivery.queuedOn executor (news.map Prod.fst) := by
  calc y.queue executor
    _ = Delivery.queuedOn executor ((x.handed ++ news).filterMap queued?) := by rw [queue, h]
    _ = x.queue executor ++ Delivery.queuedOn executor (news.filterMap queued?) := by
      simp [queue, Delivery.queuedOn]
    _ = x.queue executor ++ Delivery.queuedOn executor (news.map Prod.fst) := by
      rw [queuedOn_queued htakes]

end Station

namespace Neighbours

variable (n : Neighbours κ ε η τ)

/-- Cancelling hands out an ending for each request that waits, and spends the table. -/
theorem run_cancelAll (reason : String) (x : Station κ ε η τ) :
    (n.fabric.cancelAll reason).run x = ((x.router.table.cancelAll reason).1,
      (x.router.table.cancelAll reason).2.1.foldl (Station.handOut n)
        (x.withTable (x.router.table.cancelAll reason).2.2)) :=
  n.run_onTable _ x

/-- Cancelling finds nothing in a spent table, and leaves everything as it is. -/
theorem run_cancelAll_of_spent {x : Station κ ε η τ} (h : x.router.table.Spent) (reason : String) :
    (n.fabric.cancelAll reason).run x = (0, x) := by
  rw [run_cancelAll, h.cancelAll_eq]
  rfl

/-- Cancelling everything in whatever a table has come to, with any number of shards in whatever
order, and whatever executors do with what they are handed.

There is one wave of endings: one for each request that waits, with the smallest id first. They are
handed out after all that was handed out before, each to the executor that its request was registered
with, and none is held back because another was refused; so an executor that takes what it gets has
queued its part of the wave, behind all that it had queued. The answer is the number of requests, and
the counter of cancellations grows by it. Nothing waits afterwards, the table is closed, and nothing
else of the router has changed. Whatever is asked of the table later, cancelling again answers 0 and
changes nothing. -/
theorem cancelAll_ends_everything [DecidableEq ε] (shards : Nat)
    (calls : List ((Nat → ShardOrder κ ε) × PendingCall κ ε)) (orders : Nat → ShardOrder κ ε)
    (x : Station κ ε η τ) (reason : String) :
    let history := (PendingTable.ofShards shards : PendingTable κ ε).shuffledHistory calls
    let table := history.2.arrange orders
    let before := x.withTable table
    let cancelled := (n.fabric.cancelAll reason).run before
    let after := cancelled.2
    let ending := fun entry : RequestId × PendingRequest κ ε =>
      entry.2.deliver entry.1 (.error (.cancelled reason)) true
    ∃ wave : List (RequestId × PendingRequest κ ε),
      (∀ id request, (id, request) ∈ wave ↔ PendingEntry.waiting id history.1 = some request) ∧
      wave.Pairwise (·.1.value < ·.1.value) ∧
      cancelled.1 = wave.length ∧ table.size = wave.length ∧
      (∃ news, after.handed = before.handed ++ news ∧ news.map Prod.fst = wave.map ending ∧
        ∀ handed ∈ news, ∃ outside, handed.2 = (n.take handed.1 outside).1) ∧
      (∀ executor, (∀ d outside, d.executor = executor → (n.take d outside).1 = .ok ()) →
        after.queue executor =
          before.queue executor ++ (wave.filter (·.2.executor = executor)).map ending) ∧
      (∃ spent : PendingTable κ ε, after.router = { before.router with table := spent } ∧
        spent.size = 0 ∧ (∀ id, spent.find? id = none) ∧ spent.closed = true ∧
        spent.nextId = table.nextId ∧
        spent.stats =
          { table.stats with cancelled := table.stats.cancelled + wave.length }) ∧
      after.received = before.received ∧
      ∀ later orders' again,
        let after' :=
          after.withTable ((after.router.table.shuffledHistory later).2.arrange orders')
        (n.fabric.cancelAll again).run after' = (0, after') := by
  intro history table before cancelled after ending
  have hbefore : history.2.Sharded :=
    ((PendingTable.sharded_ofShards shards).find?_shuffledHistory calls ⟨0⟩).1
  have hsharded : table.Sharded := hbefore.arrange orders
  have hstation : after = (table.pending.map ending).foldl (Station.handOut n)
      (before.withTable (table.cancelAll reason).2.2) :=
    congrArg Prod.snd (n.run_cancelAll reason before)
  have hrouter : after.router = { before.router with table := (table.cancelAll reason).2.2 } := by
    rw [hstation, Station.router_foldl_handOut]
    rfl
  obtain ⟨news, hhanded, hnews, hanswers⟩ :=
    Station.exists_handed_foldl n (table.pending.map ending)
      (before.withTable (table.cancelAll reason).2.2)
  rw [← hstation] at hhanded
  have hspent : after.router.table.Spent := by
    rw [hrouter]
    exact table.spent_cancelAll reason
  refine ⟨table.pending, ?_, ?_, ?_, ?_, ⟨news, hhanded, hnews, hanswers⟩, ?_, ?_, ?_, ?_⟩
  · intro id request
    calc (id, request) ∈ table.pending
      _ ↔ (id, request) ∈ table.entries := table.pending_perm.mem_iff
      _ ↔ table.find? id = some request := (hsharded.find?_eq_some_iff id request).symm
      _ ↔ PendingEntry.waiting id history.1 = some request := by
        rw [hbefore.find?_arrange, PendingTable.find?_eq_waiting]
  · have hascending : (table.pending.map ending).Pairwise (·.id.value < ·.id.value) :=
      hsharded.ascending_cancelAll reason
    rw [List.pairwise_map] at hascending
    exact hascending
  · exact congrArg Prod.fst (n.run_cancelAll reason before)
  · exact table.pending_perm.length_eq.symm
  · intro executor htakes
    rw [Station.queue_of_append (x := before) hhanded ?_, hnews]
    · simp [Delivery.queuedOn, List.filter_map, Function.comp_def, ending, PendingRequest.deliver]
    · intro handed hmem hon
      obtain ⟨outside, hanswer⟩ := hanswers handed hmem
      rw [hanswer]
      exact htakes handed.1 outside hon
  · refine ⟨_, hrouter, ?_, table.find?_cancelAll reason, rfl, rfl, rfl⟩
    exact (table.spent_cancelAll reason).size_eq
  · rw [hstation, Station.received_foldl_handOut]
    rfl
  · intro later orders' again after'
    exact n.run_cancelAll_of_spent ((hspent.shuffledHistory later).arrange orders') again

end Neighbours

end Switchboard
