import Switchboard.Fault
/-!
# Pending requests

The table of requests that wait for a result. An entry says which continuation gets the result,
on which executor it runs, and whether it wants intermediate results too. The table answers every
operation with the deliveries that it hands to executors, in order.

Entries are spread over shards by their id. Cancelling everything closes the table and delivers
in ascending order of ids, so nothing that the table does depends on the shards.
-/
namespace Switchboard

/-- A request that waits. Continuations and executors are named by `κ` and `ε`. -/
structure PendingRequest (κ ε : Type) where
  continuation : κ
  executor : ε
  streaming : Bool

/-- An outcome on its way to a continuation. -/
structure Delivery (κ ε : Type) where
  id : RequestId
  continuation : κ
  executor : ε
  outcome : Outcome
  terminal : Bool

namespace PendingRequest

variable {κ ε : Type}

/-- The delivery of an outcome to the continuation of a request. -/
def deliver (request : PendingRequest κ ε) (id : RequestId) (outcome : Outcome)
    (terminal : Bool) : Delivery κ ε :=
  { id, continuation := request.continuation, executor := request.executor, outcome, terminal }

end PendingRequest

/-- What became of the requests of a table. -/
structure TableStats where
  registered : Nat := 0
  completed : Nat := 0
  failed : Nat := 0
  cancelled : Nat := 0
  dropped : Nat := 0
deriving DecidableEq

/-- The requests of one shard, with their ids. -/
abbrev Shard (κ ε : Type) := List (RequestId × PendingRequest κ ε)

namespace Shard

variable {κ ε : Type}

/-- The request with an id. -/
def find? (s : Shard κ ε) (id : RequestId) : Option (PendingRequest κ ε) :=
  (List.find? (fun entry => entry.1 = id) s).map (·.2)

/-- The shard without an id. -/
def without (s : Shard κ ε) (id : RequestId) : Shard κ ε :=
  List.filter (fun entry => entry.1 ≠ id) s

end Shard

/-- A table of pending requests, and the continuations of all requests that it ever took, oldest
first. -/
structure PendingTable (κ ε : Type) where
  shards : Array (Shard κ ε)
  shards_nonempty : 0 < shards.size
  closed : Bool := false
  nextId : UInt64 := 1
  stats : TableStats := {}
  taken : List κ := []

namespace PendingTable

variable {κ ε : Type}

/-- An open table without requests, over `count` shards, at least one. -/
def ofShards (count : Nat) : PendingTable κ ε :=
  { shards := Array.replicate (max count 1) []
    shards_nonempty := by rw [Array.size_replicate]; omega }

/-- The shards of a table whose builder does not care. -/
def defaultShards : Nat := 16

/-- The shard that an id belongs to. -/
def indexOf (t : PendingTable κ ε) (id : RequestId) : Nat := id.value.toNat % t.shards.size

theorem indexOf_lt (t : PendingTable κ ε) (id : RequestId) : t.indexOf id < t.shards.size :=
  Nat.mod_lt _ t.shards_nonempty

/-- The shard that an id belongs to. -/
def shardOf (t : PendingTable κ ε) (id : RequestId) : Shard κ ε :=
  have := t.indexOf_lt id
  t.shards[t.indexOf id]

/-- Changes the shard that an id belongs to. -/
def modifyShard (t : PendingTable κ ε) (id : RequestId) (f : Shard κ ε → Shard κ ε) :
    PendingTable κ ε :=
  { t with
    shards := t.shards.modify (t.indexOf id) f
    shards_nonempty := by rw [Array.size_modify]; exact t.shards_nonempty }

/-- The request with an id, if it waits. -/
def find? (t : PendingTable κ ε) (id : RequestId) : Option (PendingRequest κ ε) :=
  (t.shardOf id).find? id

/-- Whether a request waits. -/
def contains (t : PendingTable κ ε) (id : RequestId) : Bool := (t.find? id).isSome

/-- How many requests wait. -/
def size (t : PendingTable κ ε) : Nat := t.shards.toList.flatten.length

/-- Hands out the next id. -/
def allocate (t : PendingTable κ ε) : RequestId × PendingTable κ ε :=
  (⟨t.nextId⟩, { t with nextId := t.nextId + 1 })

/-- Changes the counters. -/
def count (t : PendingTable κ ε) (f : TableStats → TableStats) : PendingTable κ ε :=
  { t with stats := f t.stats }

/-- Remembers that a request was taken. -/
def record (t : PendingTable κ ε) (continuation : κ) : PendingTable κ ε :=
  { t with taken := t.taken ++ [continuation] }

/-- Lets a request wait under an id that none waits under; a closed table refuses. -/
def register (t : PendingTable κ ε) (id : RequestId) (request : PendingRequest κ ε) :
    Except Fault Unit × PendingTable κ ε :=
  if t.closed then (.error (.dispatchFailure "pending table is closed"), t)
  else if t.contains id then
    (.error (.invalidArgument (id.text ++ " is already pending")), t)
  else
    (.ok (), ((t.modifyShard id ((id, request) :: ·)).record request.continuation).count fun s =>
      { s with registered := s.registered + 1 })

/-- Takes a request out of the table. -/
def erase (t : PendingTable κ ε) (id : RequestId) : PendingTable κ ε :=
  t.modifyShard id (·.without id)

/-- Takes a result for a request; false when none waits under the id. A result that is not final
goes to a streaming request only, and leaves the request waiting. -/
def complete (t : PendingTable κ ε) (id : RequestId) (result : CmdResult) :
    Bool × List (Delivery κ ε) × PendingTable κ ε :=
  match t.find? id with
  | none => (false, [], t.count fun s => { s with dropped := s.dropped + 1 })
  | some request =>
    if result.isFinal then
      (true, [request.deliver id (.ok result) true],
        (t.erase id).count fun s => { s with completed := s.completed + 1 })
    else if request.streaming then (true, [request.deliver id (.ok result) false], t)
    else (true, [], t)

/-- Ends a request with a fault; false when none waits under the id. -/
def fail (t : PendingTable κ ε) (id : RequestId) (fault : Fault) :
    Bool × List (Delivery κ ε) × PendingTable κ ε :=
  match t.find? id with
  | none => (false, [], t)
  | some request =>
    (true, [request.deliver id (.error fault) true],
      (t.erase id).count fun s => { s with failed := s.failed + 1 })

/-- All requests that wait, in ascending order of their ids. -/
def pending (t : PendingTable κ ε) : List (RequestId × PendingRequest κ ε) :=
  (t.shards.toList.flatten).mergeSort fun a b => a.1.value ≤ b.1.value

/-- Ends every request with a cancellation and closes the table for good. Answers how many
requests there were. -/
def cancelAll (t : PendingTable κ ε) (reason : String) :
    Nat × List (Delivery κ ε) × PendingTable κ ε :=
  let pending := t.pending
  (pending.length,
    pending.map fun entry => entry.2.deliver entry.1 (.error (.cancelled reason)) true,
    { t with
      shards := t.shards.map fun _ => []
      shards_nonempty := by rw [Array.size_map]; exact t.shards_nonempty
      closed := true
      stats := { t.stats with cancelled := t.stats.cancelled + pending.length } })

section Equations

variable {t : PendingTable κ ε} {id : RequestId}

/-- A result for which nothing waits is counted and dropped. -/
theorem complete_of_none (h : t.find? id = none) (result : CmdResult) :
    t.complete id result = (false, [], t.count fun s => { s with dropped := s.dropped + 1 }) := by
  simp [complete, h]

/-- A final result ends the request that waits. -/
theorem complete_of_final {request : PendingRequest κ ε} (h : t.find? id = some request)
    {result : CmdResult} (hfinal : result.isFinal = true) :
    t.complete id result = (true, [request.deliver id (.ok result) true],
      (t.erase id).count fun s => { s with completed := s.completed + 1 }) := by
  simp [complete, h, hfinal]

/-- A result that is not final leaves the table as it is. -/
theorem complete_of_interim {request : PendingRequest κ ε} (h : t.find? id = some request)
    {result : CmdResult} (hfinal : result.isFinal = false) :
    t.complete id result =
      (true, if request.streaming then [request.deliver id (.ok result) false] else [], t) := by
  cases hs : request.streaming <;> simp [complete, h, hfinal, hs]

/-- A fault for which nothing waits leaves the table as it is. -/
theorem fail_of_none (h : t.find? id = none) (fault : Fault) : t.fail id fault = (false, [], t) := by
  simp [fail, h]

/-- A fault ends the request that waits. -/
theorem fail_of_some {request : PendingRequest κ ε} (h : t.find? id = some request)
    (fault : Fault) :
    t.fail id fault = (true, [request.deliver id (.error fault) true],
      (t.erase id).count fun s => { s with failed := s.failed + 1 }) := by
  simp [fail, h]

end Equations

end PendingTable
end Switchboard
