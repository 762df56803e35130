import Switchboard.Pending
/-!
# The ledger of pending requests

The same table kept as one list of ids with their requests, in which no id stands twice. It says
what a table of pending requests does without any shards.
-/
namespace Switchboard

/-- Pending requests in one list. -/
structure PendingLedger (κ ε : Type) where
  entries : List (RequestId × PendingRequest κ ε) := []
  closed : Bool := false
  nextId : UInt64 := 1
  stats : TableStats := {}

namespace PendingLedger

variable {κ ε : Type}

/-- The request with an id, if it waits. -/
def find? (l : PendingLedger κ ε) (id : RequestId) : Option (PendingRequest κ ε) :=
  (l.entries.find? (·.1 = id)).map (·.2)

/-- Whether a request waits. -/
def contains (l : PendingLedger κ ε) (id : RequestId) : Bool := (l.find? id).isSome

/-- How many requests wait. -/
def size (l : PendingLedger κ ε) : Nat := l.entries.length

/-- Hands out the next id. -/
def allocate (l : PendingLedger κ ε) : RequestId × PendingLedger κ ε :=
  (⟨l.nextId⟩, { l with nextId := l.nextId + 1 })

/-- Lets a request wait. -/
def register (l : PendingLedger κ ε) (id : RequestId) (request : PendingRequest κ ε) :
    Except Fault Unit × PendingLedger κ ε :=
  if l.closed then (.error (.dispatchFailure "pending table is closed"), l)
  else if l.contains id then
    (.error (.invalidArgument (id.text ++ " is already pending")), l)
  else
    (.ok (), { l with
      entries := (id, request) :: l.entries
      stats := { l.stats with registered := l.stats.registered + 1 } })

/-- Takes a request out. -/
def erase (l : PendingLedger κ ε) (id : RequestId) : PendingLedger κ ε :=
  { l with entries := l.entries.filter (·.1 ≠ id) }

/-- Takes a result for a request. -/
def complete (l : PendingLedger κ ε) (id : RequestId) (result : CmdResult) :
    Bool × List (Delivery κ ε) × PendingLedger κ ε :=
  match l.find? id, result.isFinal with
  | none, _ => (false, [], { l with stats := { l.stats with dropped := l.stats.dropped + 1 } })
  | some request, true =>
    (true, [request.deliver id (.ok result) true],
      { l.erase id with stats := { l.stats with completed := l.stats.completed + 1 } })
  | some request, false =>
    (true, if request.streaming then [request.deliver id (.ok result) false] else [], l)

/-- Ends a request with a fault. -/
def fail (l : PendingLedger κ ε) (id : RequestId) (fault : Fault) :
    Bool × List (Delivery κ ε) × PendingLedger κ ε :=
  match l.find? id with
  | none => (false, [], l)
  | some request =>
    (true, [request.deliver id (.error fault) true],
      { l.erase id with stats := { l.stats with failed := l.stats.failed + 1 } })

/-- Ends every request with a cancellation, the smallest id first, and closes the ledger. -/
def cancelAll (l : PendingLedger κ ε) (reason : String) :
    Nat × List (Delivery κ ε) × PendingLedger κ ε :=
  let pending := l.entries.mergeSort fun a b => a.1.value ≤ b.1.value
  (l.size,
    pending.map fun entry => entry.2.deliver entry.1 (.error (.cancelled reason)) true,
    { l with
      entries := []
      closed := true
      stats := { l.stats with cancelled := l.stats.cancelled + l.size } })

end PendingLedger
end Switchboard
