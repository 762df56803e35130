import Switchboard.Pending
import Switchboard.Place
/-!
# Routers and outlets

A router knows the endpoint of each location and owns the table of pending requests. One side of
the conversation sends through an outlet, which stamps the sender on commands and knows where a
message goes that names no destination.

Handing a message to an endpoint, or a delivery to an executor, is the business of the program in
which the router lives; a fabric says how. An endpoint may use the router before it answers.
-/
namespace Switchboard

/-- The endpoints of locations, the pending requests, and whether sends are refused. -/
structure Router (κ ε η : Type) where
  routes : List (Loc × η) := []
  table : PendingTable κ ε
  closed : Bool := false

namespace Router

variable {κ ε η : Type}

/-- The endpoint of a location. -/
def endpoint? (r : Router κ ε η) (loc : Loc) : Option η := r.routes.lookup loc

/-- Whether a location has an endpoint. -/
def hasRoute (r : Router κ ε η) (loc : Loc) : Bool := (r.endpoint? loc).isSome

/-- Gives a location its endpoint; it can have only one. -/
def addRoute (loc : Loc) (endpoint : η) (r : Router κ ε η) : Except Fault Unit × Router κ ε η :=
  if r.hasRoute loc then
    (.error (.invalidArgument ("route to " ++ loc.text ++ " already registered")), r)
  else (.ok (), { r with routes := r.routes ++ [(loc, endpoint)] })

/-- Refuses all later sends. Pending requests stay. -/
def close (r : Router κ ε η) : Router κ ε η := { r with closed := true }

/-- Refuses all later sends and forgets all endpoints. -/
def clearRoutes (r : Router κ ε η) : Router κ ε η := { r with closed := true, routes := [] }

/-- The endpoint of a location, or the fault that there is none. -/
def resolve (r : Router κ ε η) (loc : Loc) : Except Fault η :=
  match r.endpoint? loc with
  | some endpoint => .ok endpoint
  | none => .error (.dispatchFailure ("no route to " ++ loc.text))

/-- Lets sends pass unless the router is closed. -/
def ensureOpen (r : Router κ ε η) : Except Fault Unit :=
  if r.closed then .error (.dispatchFailure "router is closed") else .ok ()

/-- Applies an operation of the table that makes deliveries. -/
def onTable {α : Type} (r : Router κ ε η)
    (f : PendingTable κ ε → α × List (Delivery κ ε) × PendingTable κ ε) :
    (α × List (Delivery κ ε)) × Router κ ε η :=
  let (a, deliveries, table) := f r.table
  ((a, deliveries), { r with table })

end Router

/-- How a program in `m` keeps a router, hands deliveries to executors, and hands messages to
endpoints. -/
structure Fabric (m : Type → Type) (κ ε η : Type) where
  router : Place m (Router κ ε η)
  submit : Delivery κ ε → m Unit
  forward : η → Message → m (Except Fault Unit)

/-- The sending half of one side: who sends, where to by default, and the executor on which
results are handled. -/
structure Outlet (ε : Type) where
  src : Loc
  defaultDest : Loc
  executor : ε

namespace Fabric

variable {m : Type → Type} [Monad m] {κ ε η : Type}

/-- Applies an operation of the table and hands out its deliveries in order. -/
def onTable {α : Type} (f : Fabric m κ ε η)
    (op : PendingTable κ ε → α × List (Delivery κ ε) × PendingTable κ ε) : m α := do
  let (a, deliveries) ← f.router.step (·.onTable op)
  deliveries.forM f.submit
  return a

/-- Takes a result for a request. -/
def complete (f : Fabric m κ ε η) (id : RequestId) (result : CmdResult) : m Bool :=
  f.onTable (·.complete id result)

/-- Ends a request with a fault. -/
def fail (f : Fabric m κ ε η) (id : RequestId) (fault : Fault) : m Bool :=
  f.onTable (·.fail id fault)

/-- Ends every request with a cancellation. -/
def cancelAll (f : Fabric m κ ε η) (reason : String) : m Nat :=
  f.onTable (·.cancelAll reason)

/-- Hands a message to the endpoint of a location. -/
def forwardTo (f : Fabric m κ ε η) (dest : Loc) (msg : Message) : m (Except Fault Unit) := do
  match (← f.router.get).resolve dest with
  | .error e => return .error e
  | .ok endpoint => f.forward endpoint msg

/-- Returns a result to the request that it names. A result that names none is refused; one whose
request does not wait any more is dropped. -/
def returnResult (f : Fabric m κ ε η) (result : CmdResult) : m (Except Fault Unit) := do
  match result.validate, result.requestId with
  | .error e, _ => return .error (.ofInvalid e)
  | .ok (), none => return .error (.invalidArgument Defect.unbound.text)
  | .ok (), some id =>
    let _ ← f.complete id result
    return .ok ()

end Fabric

/-- The command as it is forwarded: the router's id, the outlet's sender and the destination
replace whatever was there. -/
def Cmd.stamped (c : Cmd) (id : RequestId) (src dest : Loc) : Cmd :=
  { c with requestId := some id, src := some src, dest := some dest }

/-- Allocates an id and lets a request wait under it; the id is used up even if the table
refuses. -/
def Router.accept {κ ε η : Type} (request : PendingRequest κ ε) (r : Router κ ε η) :
    Except Fault RequestId × Router κ ε η :=
  let (id, table) := r.table.allocate
  let (answer, table) := table.register id request
  (answer.map fun _ => id, { r with table })

namespace Outlet

variable {m : Type → Type} [Monad m] {κ ε η : Type}

/-- Where a message goes that may name a destination. -/
def destination (p : Outlet ε) (dest : Option Loc) : Loc := dest.getD p.defaultDest

/-- Sends a command. What is wrong with the command, the router or the table is told to the
caller and leaves nothing behind. From then on the request waits: what goes wrong in forwarding
ends the request, if nothing else has ended it by then. -/
def sendCmd (f : Fabric m κ ε η) (p : Outlet ε) (cmd : Cmd) (continuation : κ) (streaming : Bool) :
    m (Except Fault RequestId) := do
  match cmd.validate with
  | .error e => return .error (.ofInvalid e)
  | .ok () =>
    match (← f.router.get).ensureOpen with
    | .error e => return .error e
    | .ok () =>
      match ← f.router.step (·.accept { continuation, executor := p.executor, streaming }) with
      | .error e => return .error e
      | .ok id =>
        let dest := p.destination cmd.dest
        match ← f.forwardTo dest (.cmd (cmd.stamped id p.src dest)) with
        | .error e => let _ ← f.fail id e
        | .ok () => pure ()
        return .ok id

/-- Sends data or a frame. -/
def send (f : Fabric m κ ε η) (p : Outlet ε) (msg : Message) : m (Except Fault Unit) := do
  if !msg.kind.isOneWay then
    return .error (.invalidArgument
      (msg.kind.text ++ " cannot be sent as a one-way message"))
  else
    match msg.validate with
    | .error e => return .error (.ofInvalid e)
    | .ok () =>
      match (← f.router.get).ensureOpen with
      | .error e => return .error e
      | .ok () =>
        let dest := p.destination msg.dest
        f.forwardTo dest (msg.withDest dest)

end Outlet
end Switchboard
