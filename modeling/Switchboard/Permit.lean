import Switchboard.Place
/-!
# Permits

A pool bounds how many calls are inside the engine at once. Each call holds one slot from its
beginning to its end, also when it ends by a panic. A desk is a pool together with the permits
that callers keep under names of their own.
-/
namespace Switchboard

/-- Slots in use, the most that were ever in use, and how many there are. -/
structure PermitPool where
  capacity : Nat
  inFlight : Nat := 0
  peak : Nat := 0
deriving DecidableEq

namespace PermitPool

/-- A pool of `capacity` slots, at least one, all of them free. -/
def ofCapacity (capacity : Nat) : PermitPool := { capacity := max capacity 1 }

/-- No slot is free. -/
def isFull (p : PermitPool) : Bool := p.capacity ≤ p.inFlight

/-- Takes one more slot. -/
def take (p : PermitPool) : PermitPool :=
  { p with inFlight := p.inFlight + 1, peak := max p.peak (p.inFlight + 1) }

/-- Gives one slot back. -/
def give (p : PermitPool) : PermitPool := { p with inFlight := p.inFlight - 1 }

/-- Takes a slot if one is free; tells whether it did. -/
def tryTake (p : PermitPool) : Bool × PermitPool :=
  if p.isFull then (false, p) else (true, p.take)

/-- Runs `body` with a slot, which is given back at the end. -/
def during {m : Type → Type} [Monad m] {α : Type} (pool : Place m PermitPool) (body : m α) :
    m α := do
  pool.modify take
  let a ← body
  pool.modify give
  return a

end PermitPool

/-- What a caller may do at a desk. -/
inductive PermitRequest where
  /-- takes a slot at once or not at all -/
  | tryAcquire (name : String)
  /-- waits a while for a slot; nobody gives one back meanwhile -/
  | acquireTimeout (name : String)
  /-- takes a slot that is free; a caller would wait for one that is not -/
  | acquire (name : String)
  /-- gives back the permit of a name -/
  | release (name : String)
  /-- waits in a full pool until the permit `freed` is given back -/
  | acquireWaiting (name freed : String)
  /-- takes a slot at once or not at all, and gives it back -/
  | probe
  /-- makes a call inside the pool, during which it makes other requests -/
  | run (body : List PermitRequest)
  /-- panics -/
  | panic (panic : Panic)

/-- What a caller learns at a desk. -/
inductive PermitAnswer where
  | flag (value : Bool)
  | wouldBlock
  | notPossible
  /-- the slots in use when a call began, and what was answered during it -/
  | inside (inFlight : Nat) (answers : List PermitAnswer)
  | panicked (panic : Panic)

/-- A pool and the names under which its permits are held. -/
structure PermitDesk where
  pool : PermitPool
  held : List String := []

namespace PermitDesk

/-- Takes a slot under a name. A permit held under that name before is given back afterwards. -/
def store (d : PermitDesk) (name : String) : PermitDesk :=
  let pool := d.pool.take
  if name ∈ d.held then { d with pool := pool.give }
  else { pool, held := d.held ++ [name] }

/-- Gives the permit of a name back. -/
def drop (d : PermitDesk) (name : String) : PermitDesk :=
  if name ∈ d.held then { pool := d.pool.give, held := d.held.filter (· ≠ name) } else d

mutual

/-- Serves one caller. A panic unwinds out of the calls in which it happens; each of them gives
its slot back. -/
def serve (d : PermitDesk) : PermitRequest → Except Panic PermitAnswer × PermitDesk
  | .tryAcquire name | .acquireTimeout name =>
    if d.pool.isFull then (.ok (.flag false), d) else (.ok (.flag true), d.store name)
  | .acquire name =>
    if d.pool.isFull then (.ok .wouldBlock, d) else (.ok (.flag true), d.store name)
  | .release name => (.ok (.flag (name ∈ d.held)), d.drop name)
  | .acquireWaiting name freed =>
    if d.pool.isFull ∧ freed ∈ d.held then (.ok (.flag true), (d.drop freed).store name)
    else (.ok .notPossible, d)
  | .probe =>
    let (taken, pool) := d.pool.tryTake
    (.ok (.flag taken), { d with pool := if taken then pool.give else pool })
  | .run body =>
    if d.pool.isFull then (.ok .wouldBlock, d)
    else
      let within := d.pool.take
      let (answers, d) := serveAll { d with pool := within } body
      (answers.map (.inside within.inFlight), { d with pool := d.pool.give })
  | .panic panic => (.error panic, d)

/-- Serves requests in order, up to the first panic. -/
def serveAll (d : PermitDesk) :
    List PermitRequest → Except Panic (List PermitAnswer) × PermitDesk
  | [] => (.ok [], d)
  | request :: requests =>
    match serve d request with
    | (.error panic, d) => (.error panic, d)
    | (.ok answer, d) =>
      let (answers, d) := serveAll d requests
      (answers.map (answer :: ·), d)

end

/-- Serves one caller who survives a panic. -/
def visit (d : PermitDesk) (request : PermitRequest) : PermitAnswer × PermitDesk :=
  match d.serve request with
  | (.ok answer, d) => (answer, d)
  | (.error panic, d) => (.panicked panic, d)

end PermitDesk
end Switchboard
