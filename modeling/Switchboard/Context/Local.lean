import Switchboard.Fault
import Switchboard.Place
/-!
# Local contexts

A serial context whose jobs wait until somebody pumps it. Jobs run in the order in which they
were queued. While it is pumped a context is current; a job may pump it again, and pumping may
end early because a job panicked.
-/
namespace Switchboard

/-- Queued jobs, oldest first. -/
structure LocalContext (J : Type) where
  name : String
  queue : List J := []
  current : Bool := false
  closed : Bool := false

namespace LocalContext

variable {J : Type}

/-- Queues a job, unless the context is closed. -/
def execute (job : J) (c : LocalContext J) : Except Fault Unit × LocalContext J :=
  if c.closed then (.error (.dispatchFailure ("context " ++ c.name ++ " is closed")), c)
  else (.ok (), { c with queue := c.queue ++ [job] })

/-- Refuses all later jobs; what is queued stays. -/
def close (c : LocalContext J) : LocalContext J := { c with closed := true }

/-- Takes the oldest job. -/
def next (c : LocalContext J) : Option J × LocalContext J :=
  match c.queue with
  | [] => (none, c)
  | job :: jobs => (some job, { c with queue := jobs })

/-- Becomes current; answers whether it was before. -/
def enter (c : LocalContext J) : Bool × LocalContext J := (c.current, { c with current := true })

/-- Is current or not, as it was before. -/
def leave (before : Bool) (c : LocalContext J) : LocalContext J := { c with current := before }

variable {m : Type → Type} [Monad m]

/-- Runs at most `max` jobs after `ran` others, those included that are queued meanwhile. -/
def runJobs (context : Place m (LocalContext J)) (run : J → m (Except Panic Unit)) (ran : Nat) :
    (max : Nat) → m (Except Panic Nat)
  | 0 => return .ok ran
  | max + 1 => do
    match ← context.step next with
    | none => return .ok ran
    | some job =>
      match ← run job with
      | .error panic => return .error panic
      | .ok () => runJobs context run (ran + 1) max

/-- Runs at most `max` jobs and answers how many it ran. A panic of a job ends the pump; the
context is then as current as it was before, and the other jobs stay queued. -/
def pump (context : Place m (LocalContext J)) (run : J → m (Except Panic Unit)) (max : Nat) :
    m (Except Panic Nat) := do
  let before ← context.step enter
  let ran ← runJobs context run 0 max
  context.modify (leave before)
  return ran

end LocalContext
end Switchboard
