import Switchboard.App.Boundary
import Switchboard.App.Responder
/-!
# Actions and jobs

A job of a worker runs one callback: of the tester, of the extension under test, of a command
that has come to an outcome, or of a message that was handed over. What a callback is scripted to
do happens without a break, up to a panic, and every action is shown with its answer.
-/
namespace Switchboard.App.Program

/-- The completion that an action of a side asks for. -/
def completionOf (side : Side) (ack : Option Ack) : Option Completion :=
  match side with
  | .engine => none
  | .tester => ack.map .scripted

/-- Answers a command, if there is one. -/
def replyTo (side : Side) (cmd : Option Cmd) (reply : Reply) (ack : Option Ack) :
    Program Answer :=
  match cmd with
  | none => return .noCommand
  | some cmd => return .done (← returnResult side (reply.answering cmd) (completionOf side ack))

/-- Performs an action that only the tester's side has. -/
def actAsTester (inside : Bool) : Action → Program Answer
  | .stop => return .done (← stop inside)
  | .startDone => return .done (← lifecycle.step Lifecycle.startDone)
  | .stopDone => return .done (← lifecycle.step Lifecycle.stopDone)
  | .deinitDone => return .done (← lifecycle.step Lifecycle.deinitDone)
  | .phase => return .phase (← get).lifecycle.phase
  | .isPending id => return .flag ((← get).router.table.contains id)
  | .pendingSize => return .count (← get).router.table.size
  | .stats => return .stats (← get).stats
  | .tableStats => return .tableStats (← get).router.table.stats
  | .log level site message => return .done (← log level site message)
  | _ => return .name (← get).name

/-- Performs an action of a side, on its own worker (`inside`) or not, for the command that is
current there. What only the tester's side has makes the extension's side tell its name. -/
def act (side : Side) (inside : Bool) (current : Option Cmd) (action : Action) :
    Program (Except Panic Answer) :=
  match action with
  | .reply reply ack => return .ok (← replyTo side current reply ack)
  | .returnResult result ack =>
    return .ok (.done (← returnResult side result (completionOf side ack)))
  | .hold slot => do
    if let some cmd := current then
      modify fun a => { a with held := (slot, cmd) :: a.held.filter (·.1 ≠ slot) }
    return .ok (.done (.ok ()))
  | .replyHeld slot reply ack => do
    return .ok (← replyTo side ((← get).held.lookup slot) reply ack)
  | .sendCmd cmd tag streaming followUp panicOn => do
    let handler := .scripted side tag followUp panicOn current
    return .ok (.sent (← sendCmd handler cmd streaming))
  | .send msg ack => return .ok (.done (← send side msg (completionOf side ack)))
  | .panic => return .error ⟨"scripted panic"⟩
  | _ =>
    match side with
    | .tester => return .ok (← actAsTester inside action)
    | .engine => return .ok (.name (← get).name)

/-- Performs actions in order, up to the first panic, and shows each after it was performed. -/
def actAll (side : Side) (inside : Bool) (current : Option Cmd) :
    List Action → Program (Except Panic Unit)
  | [] => return .ok ()
  | action :: actions => do
    match ← act side inside current action with
    | .error panic => return .error panic
    | .ok answer =>
      emit side (.action action answer)
      actAll side inside current actions

/-- Calls the handler of a command with an outcome; those of the tester are counted. -/
def callHandler (handler : Handler) (call : Nat) (outcome : Outcome) :
    Program (Except Panic Unit) := do
  if handler.side = .tester then count (·.observe outcome)
  match handler with
  | .scripted side tag followUp panicOn current =>
    emit side (.outcome tag call outcome)
    match ← actAll side true current followUp with
    | .error panic => return .error panic
    | .ok () => return if call ∈ panicOn then .error ⟨tag ++ " panics"⟩ else .ok ()
  | .promise i =>
    settlePromise i (.outcome outcome)
    return .ok ()
  | .foreign i callback => deliverForeign i callback outcome
  | .silent => return .ok ()

/-- Runs a completion. -/
def runCompletion : Completion → Program (Except Panic Unit)
  | .scripted ack => do
    emit .tester (.ack ack.tag)
    actAll .tester true none ack.followUp
  | .promise i => do
    settlePromise i .sent
    return .ok ()
  | .foreign i handle callback => completeForeign i handle callback

/-- The command that is current while a message is handled. -/
def currentOf : Message → Option Cmd
  | .cmd cmd => some cmd
  | _ => none

/-- Answers a command that nothing else answers. -/
def refuse (side : Side) (name : String) : Message → Program (Except Panic Unit)
  | .cmd cmd => do
    let reply : Reply := { verdict := .error, detail := name ++ " does not handle " ++ cmd.name }
    let _ ← returnResult side (reply.answering cmd) none
    return .ok ()
  | _ => return .ok ()

/-- Shows a message and handles it by rules; without a rule for it a command is refused. -/
def followRules (side : Side) (name : String) (rules : MessageRules) (msg : Message) :
    Program (Except Panic Unit) := do
  emit side (.message msg)
  match rules.match? msg with
  | some actions => actAll side true (currentOf msg) actions
  | none => refuse side name msg

/-- Handles a message that has arrived at a side. Without a tester it is dropped there. -/
def handleArrival (side : Side) (msg : Message) : Program (Except Panic Unit) := do
  let a ← get
  match side with
  | .tester =>
    match a.tester with
    | none => return .ok ()
    | some script => followRules .tester "tester" script.rules msg
  | .engine =>
    match a.extension with
    | .scripted script => followRules .engine a.name script.rules msg
    | .responder =>
      Responder.onMessage msg
      return .ok ()

/-- Initialises the extension. -/
def initExtension (properties : Json) : Program (Except Panic Unit) := do
  let a ← get
  match a.extension with
  | .scripted script =>
    emit .engine (.initExtension a.name properties)
    actAll .engine true none script.onInit
  | .responder =>
    Responder.onInit properties
    return .ok ()

/-- Starts the extension. -/
def startExtension : Program (Except Panic Unit) := do
  match (← get).extension with
  | .scripted script =>
    match script.onStart with
    | none => return .ok ()
    | some actions =>
      emit .engine .startExtension
      actAll .engine true none actions
  | .responder =>
    Responder.onStart
    return .ok ()

/-- Runs the callback of a phase: what the tester is scripted to do, otherwise the
acknowledgement of the phase. -/
def runPhase (callback : PhaseCallback) : Program (Except Panic Unit) := do
  let a ← get
  match a.tester with
  | none => return .ok ()
  | some script =>
    emit .tester (.phase callback a.lifecycle.phase)
    match callback.actions? script with
    | some actions => actAll .tester true none actions
    | none =>
      let _ ← lifecycle.step callback.acknowledge
      return .ok ()

/-- Runs a job of the worker of a side. -/
def runJob (side : Side) : Job → Program (Except Panic Unit)
  | .resume i outcome terminal => Continuation.resume (cell i) callHandler outcome terminal
  | .arrival msg => handleArrival side msg
  | .initExtension properties => initExtension properties
  | .startExtension => startExtension
  | .phase callback => runPhase callback
  | .completion completion => runCompletion completion

/-- Runs the oldest task of a worker; tells whether there was one. -/
def advance (side : Side) : Program Bool := do
  match ← (worker side).step Worker.next with
  | none => return false
  | some .mark =>
    (worker side).modify (·.count (.ok ()))
    return true
  | some (.job job) =>
    let ended ← runJob side job
    (worker side).modify (·.count ended)
    return true

end Switchboard.App.Program
