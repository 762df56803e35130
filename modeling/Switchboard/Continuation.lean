import Switchboard.Fault
import Switchboard.Place
/-!
# Continuations

A continuation holds the handler of one command. A delivery takes the handler out, calls it and
puts it back, unless the delivery was terminal: then the handler is dropped for good. A delivery
that finds no handler is dropped itself; this also happens to one that arrives while the handler
is running.
-/
namespace Switchboard

/-- Where the handler of a continuation is. -/
inductive HandlerSlot (h : Type) where
  | waiting (handler : h)
  | running
  | released

/-- What happens at a continuation. -/
inductive Visit where
  /-- a delivery arrives; it calls the handler if that is there -/
  | arrival (outcome : Outcome) (terminal called : Bool)
  /-- the call of the handler returns -/
  | returned

/-- Whether the handler is called. -/
def Visit.isCall : Visit → Bool
  | .arrival _ _ called => called
  | .returned => false

/-- A handler, whether its terminal delivery has run, and all that has happened, oldest first. -/
structure Continuation (h : Type) where
  slot : HandlerSlot h
  finished : Bool := false
  history : List Visit := []

namespace Continuation

variable {h : Type}

/-- A continuation whose handler was not called yet. -/
def ofHandler (handler : h) : Continuation h := { slot := .waiting handler }

/-- Whether the handler has been dropped. -/
def isReleased (c : Continuation h) : Bool :=
  match c.slot with
  | .released => true
  | .waiting _ | .running => false

/-- How often the handler was called. -/
def calls (c : Continuation h) : Nat := c.history.countP Visit.isCall

/-- The number of calls as it is told: a word, which begins again when it is full. -/
def deliveries (c : Continuation h) : UInt32 := .ofNat c.calls

/-- Something happens. -/
def note (visit : Visit) (c : Continuation h) : Continuation h :=
  { c with history := c.history ++ [visit] }

/-- Takes the handler out for a call and numbers the call; nothing when it is not there. -/
def takeOut (outcome : Outcome) (terminal : Bool) (c : Continuation h) :
    Option (h × Nat) × Continuation h :=
  match c.slot with
  | .waiting handler =>
    (some (handler, c.calls + 1),
     { c with slot := .running }.note (.arrival outcome terminal true))
  | .running | .released => (none, c.note (.arrival outcome terminal false))

/-- Ends a call: the handler is dropped after the terminal delivery, else put back. -/
def putBack (terminal : Bool) (handler : h) (c : Continuation h) : Continuation h :=
  if terminal then { c with slot := .released, finished := true }.note .returned
  else { c with slot := .waiting handler }.note .returned

variable {m : Type → Type} [Monad m]

/-- Calls a handler that was taken out. A panic of the handler is passed on after the call has
ended in the same way as any other. -/
def callOut (cell : Place m (Continuation h)) (call : h → Nat → Outcome → m (Except Panic Unit))
    (outcome : Outcome) (terminal : Bool) (handler : h) (n : Nat) : m (Except Panic Unit) := do
  let ended ← call handler n outcome
  cell.modify (putBack terminal handler)
  return ended

/-- Delivers an outcome: calls the handler with the number of the call, if the handler is there. -/
def resume (cell : Place m (Continuation h)) (call : h → Nat → Outcome → m (Except Panic Unit))
    (outcome : Outcome) (terminal : Bool) : m (Except Panic Unit) := do
  match ← cell.step (takeOut outcome terminal) with
  | none => return .ok ()
  | some (handler, n) => callOut cell call outcome terminal handler n

end Continuation
end Switchboard
