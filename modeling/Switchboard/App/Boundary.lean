import Switchboard.App.Env
/-!
# The boundary to a foreign host

A foreign host drives the tester's side through raw numbers. A send uses its message up once the
callback and the message were found to be good. Callbacks live until their last call. What a host
gets back is a status.
-/
namespace Switchboard.App

namespace Boundary

/-- Takes a message of a given kind out. A number that stands for no message, or for one of
another kind, leaves everything as it is. -/
def takeKind (raw : UInt64) (kind : Kind) (b : Boundary) : Except Fault Message × Boundary :=
  match Handle.ofRaw? raw with
  | none => (.error (.invalidArgument (kind.text ++ " is required")), b)
  | some handle =>
    match b.messages.get? handle with
    | none =>
      (.error (.invalidArgument (handle.text ++ " does not refer to a live message")), b)
    | some msg =>
      if msg.kind = kind then (.ok msg, { b with messages := b.messages.erase handle })
      else (.error (.invalidArgument (handle.text ++ " is a " ++ msg.kind.text ++
        ", expected " ++ kind.text)), b)

/-- The callback behind a number; zero stands for none. -/
def callback? (raw : UInt64) (b : Boundary) : Except Fault (Option (Handle × Callback)) :=
  match Handle.ofRaw? raw with
  | none => .ok none
  | some handle =>
    match b.callbacks.get? handle with
    | some callback => .ok (some (handle, callback))
    | none => .error (.invalidArgument (handle.text ++ " is not a live callback"))

/-- Forgets all messages and callbacks. -/
def clear (b : Boundary) : Boundary :=
  { messages := b.messages.clear, callbacks := b.callbacks.clear }

end Boundary

namespace Program

/-- The number of the present boundary, which is made when there is none. -/
def currentBoundary : Program Nat :=
  modifyGet fun a =>
    match a.boundary with
    | some i => (i, a)
    | none =>
      (a.boundaries.size,
        { a with boundaries := a.boundaries.push {}, boundary := some a.boundaries.size })

/-- Calls back into the host. -/
def callBack (callback : Callback) (status : Status) (result : Option Handle) :
    Program (Except Panic Unit) := do
  emit .tester (.callback callback.tag status result)
  return if callback.panics then .error ⟨callback.tag ++ " panics"⟩ else .ok ()

/-- Puts a message of the host's on the boundary. -/
def createMessage (i : Nat) (msg : Message) : Program Handle :=
  (boundary i).step fun b =>
    let (handle, messages) := b.messages.insert msg
    (handle, { b with messages })

/-- What the host is told of an outcome: a status, and a new message for a result. -/
def presentOutcome (i : Nat) : Outcome → Program (Status × Option Handle)
  | .ok result => do return (.ok, some (← createMessage i (.cmdResult result)))
  | .error fault => return (.ofFault fault, none)

/-- Hands the outcome of a command to the host. Without a callback the message of a result is
dropped again; the last outcome releases the callback before it is called. -/
def deliverForeign (i : Nat) (callback : Option (Handle × Callback)) (outcome : Outcome) :
    Program (Except Panic Unit) := do
  let (status, result) ← presentOutcome i outcome
  match callback, result with
  | some (handle, callback), _ =>
    if outcome.isTerminal then
      (boundary i).modify fun b => { b with callbacks := b.callbacks.erase handle }
    callBack callback status result
  | none, some message =>
    (boundary i).modify fun b => { b with messages := b.messages.erase message }
    return .ok ()
  | none, none => return .ok ()

/-- Tells the host that a message of its own was handed over. -/
def completeForeign (i : Nat) (handle : Handle) (callback : Callback) :
    Program (Except Panic Unit) := do
  (boundary i).modify fun b => { b with callbacks := b.callbacks.erase handle }
  callBack callback .ok none

/-- Finds the callback, then takes a message of a given kind, then sends it. -/
def sendForeign {α : Type} (i : Nat) (message callback : UInt64) (kind : Kind)
    (send : Message → Option (Handle × Callback) → Program (Except Fault α)) :
    Program (Except Fault α) := do
  match (← (boundary i).get).callback? callback with
  | .error e => return .error e
  | .ok callback =>
    match ← (boundary i).step (·.takeKind message kind) with
    | .error e => return .error e
    | .ok msg => send msg callback

/-- Sends a command of the host. -/
def sendCmdForeign (i : Nat) (message callback : UInt64) (streaming : Bool) :
    Program (Except Fault RequestId) :=
  sendForeign i message callback .cmd fun msg callback =>
    match msg with
    | .cmd cmd => sendCmd (.foreign i callback) cmd streaming
    | _ => return .error (.invalidArgument "cmd is required")

/-- The completion of a send that has a callback. -/
def foreignCompletion (i : Nat) (callback : Option (Handle × Callback)) : Option Completion :=
  callback.map fun (handle, callback) => .foreign i handle callback

/-- Sends data or a frame of the host. -/
def sendOneWayForeign (i : Nat) (message callback : UInt64) (kind : Kind) :
    Program (Except Fault Unit) :=
  sendForeign i message callback kind fun msg callback =>
    send .tester msg (foreignCompletion i callback)

/-- Returns a result of the host. -/
def returnResultForeign (i : Nat) (message callback : UInt64) : Program (Except Fault Unit) :=
  sendForeign i message callback .cmdResult fun msg callback =>
    match msg with
    | .cmdResult result => returnResult .tester result (foreignCompletion i callback)
    | _ => return .error (.invalidArgument "cmd_result is required")

/-- Forgets the message behind a number; answers with it. -/
def takeMessage (i : Nat) (raw : UInt64) : Program (Option Message) :=
  (boundary i).step fun b =>
    match Handle.ofRaw? raw with
    | none => (none, b)
    | some handle =>
      let (msg, messages) := b.messages.take handle
      (msg, { b with messages })

/-- Forgets the callback behind a number; answers with it. -/
def takeCallback (i : Nat) (raw : UInt64) : Program (Option Callback) :=
  (boundary i).step fun b =>
    match Handle.ofRaw? raw with
    | none => (none, b)
    | some handle =>
      let (callback, callbacks) := b.callbacks.take handle
      (callback, { b with callbacks })

/-- Does what the host of a boundary asks for. -/
def foreignAt (i : Nat) : ForeignCall → Program Answer
  | .create msg => return .handle (← createMessage i msg)
  | .callback callback => do
    let handle ← (boundary i).step fun b =>
      let (handle, callbacks) := b.callbacks.insert callback
      (handle, { b with callbacks })
    return .handle handle
  | .take raw => return .taken (← takeMessage i raw)
  | .releaseMessage raw => return .flag (← takeMessage i raw).isSome
  | .releaseCallback raw => return .flag (← takeCallback i raw).isSome
  | .live => do
    let b ← (boundary i).get
    return .live b.messages.size b.callbacks.size
  | .sendCmd message callback streaming =>
    return .status (.ofResult (← sendCmdForeign i message callback streaming))
  | .sendData message callback =>
    return .status (.ofResult (← sendOneWayForeign i message callback .data))
  | .sendAudioFrame message callback =>
    return .status (.ofResult (← sendOneWayForeign i message callback .audioFrame))
  | .sendVideoFrame message callback =>
    return .status (.ofResult (← sendOneWayForeign i message callback .videoFrame))
  | .returnResult message callback =>
    return .status (.ofResult (← returnResultForeign i message callback))
  | .stop => return .status (.ofResult (← stop false))
  | .startDone => return .status (.ofResult (← lifecycle.step Lifecycle.startDone))
  | .stopDone => return .status (.ofResult (← lifecycle.step Lifecycle.stopDone))
  | .deinitDone => return .status (.ofResult (← lifecycle.step Lifecycle.deinitDone))
  | .log level site message => return .status (.ofResult (← log level site message))
  | .drop => do
    (boundary i).modify .clear
    modify fun a => { a with boundary := none }
    return .flag true

/-- Does what a foreign host asks for, on a boundary that is made when it is needed. -/
def foreign (call : ForeignCall) : Program Answer := do
  match call, (← get).boundary with
  | .drop, none => return .flag false
  | _, _ => foreignAt (← currentBoundary) call

end Program
end Switchboard.App
