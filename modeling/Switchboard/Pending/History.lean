import Switchboard.Pending.Ledger
/-!
# Histories of pending requests

The operations on pending requests as data. A history is what a sequence of operations answers
and hands out, one entry for each. It can be taken of a table and of a ledger, so that the two
can be compared from outside.
-/
namespace Switchboard

/-- An operation on pending requests. -/
inductive PendingCall (κ ε : Type) where
  | allocate
  | register (id : RequestId) (request : PendingRequest κ ε)
  | complete (id : RequestId) (result : CmdResult)
  | fail (id : RequestId) (fault : Fault)
  | cancelAll (reason : String)
  | contains (id : RequestId)
  | size
  | isClosed
  | stats

/-- What an operation answers. -/
inductive PendingAnswer where
  | id (id : RequestId)
  | done (result : Except Fault Unit)
  | flag (value : Bool)
  | count (n : Nat)
  | stats (stats : TableStats)

/-- An operation with its answer and the deliveries that it handed out, in order. -/
structure PendingEntry (κ ε : Type) where
  call : PendingCall κ ε
  answer : PendingAnswer
  deliveries : List (Delivery κ ε)

namespace PendingTable

variable {κ ε : Type}

/-- Performs one operation on a table. -/
def perform (t : PendingTable κ ε) :
    PendingCall κ ε → PendingAnswer × List (Delivery κ ε) × PendingTable κ ε
  | .allocate => let (id, t) := t.allocate; (.id id, [], t)
  | .register id request => let (answer, t) := t.register id request; (.done answer, [], t)
  | .complete id result => let (answer, out, t) := t.complete id result; (.flag answer, out, t)
  | .fail id fault => let (answer, out, t) := t.fail id fault; (.flag answer, out, t)
  | .cancelAll reason => let (answer, out, t) := t.cancelAll reason; (.count answer, out, t)
  | .contains id => (.flag (t.contains id), [], t)
  | .size => (.count t.size, [], t)
  | .isClosed => (.flag t.closed, [], t)
  | .stats => (.stats t.stats, [], t)

end PendingTable

namespace PendingLedger

variable {κ ε : Type}

/-- Performs one operation on a ledger. -/
def perform (l : PendingLedger κ ε) :
    PendingCall κ ε → PendingAnswer × List (Delivery κ ε) × PendingLedger κ ε
  | .allocate => let (id, l) := l.allocate; (.id id, [], l)
  | .register id request => let (answer, l) := l.register id request; (.done answer, [], l)
  | .complete id result => let (answer, out, l) := l.complete id result; (.flag answer, out, l)
  | .fail id fault => let (answer, out, l) := l.fail id fault; (.flag answer, out, l)
  | .cancelAll reason => let (answer, out, l) := l.cancelAll reason; (.count answer, out, l)
  | .contains id => (.flag (l.contains id), [], l)
  | .size => (.count l.size, [], l)
  | .isClosed => (.flag l.closed, [], l)
  | .stats => (.stats l.stats, [], l)

end PendingLedger

namespace PendingCall

variable {κ ε σ : Type}

/-- The history of operations from a state on, and the state after them. -/
def history (perform : σ → PendingCall κ ε → PendingAnswer × List (Delivery κ ε) × σ) (s : σ) :
    List (PendingCall κ ε) → List (PendingEntry κ ε) × σ
  | [] => ([], s)
  | call :: calls =>
    let (answer, deliveries, s) := perform s call
    let (entries, s) := history perform s calls
    ({ call, answer, deliveries } :: entries, s)

@[simp] theorem history_nil
    (perform : σ → PendingCall κ ε → PendingAnswer × List (Delivery κ ε) × σ) (s : σ) :
    history perform s [] = ([], s) := rfl

theorem history_append
    (perform : σ → PendingCall κ ε → PendingAnswer × List (Delivery κ ε) × σ) (s : σ)
    (first second : List (PendingCall κ ε)) :
    history perform s (first ++ second) =
      let (entries, s) := history perform s first
      let (more, s) := history perform s second
      (entries ++ more, s) := by
  induction first generalizing s with
  | nil => rfl
  | cons call calls ih => simp only [List.cons_append, history, ih]

end PendingCall

/-- All deliveries of a history, in order. -/
def PendingEntry.delivered {κ ε : Type} (entries : List (PendingEntry κ ε)) :
    List (Delivery κ ε) :=
  entries.flatMap (·.deliveries)

/-- What an executor gets of some deliveries, in order. -/
def Delivery.queuedOn {κ ε : Type} [DecidableEq ε] (executor : ε)
    (deliveries : List (Delivery κ ε)) : List (Delivery κ ε) :=
  deliveries.filter (·.executor = executor)

end Switchboard
