import Switchboard.Handle
import Switchboard.Log
import Switchboard.Message
/-!
# Scripts of an application

What the tester and the extension under test do when something reaches them: lists of actions.
An action may leave actions behind for later, for the outcomes of a command or for the completion
of a message. An application driven from outside takes steps.
-/
namespace Switchboard.App

/-- The two sides of an application, each with a worker of its own. -/
inductive Side where
  | tester
  | engine
deriving DecidableEq

mutual

/-- What one side does. An answer is for the current command, if there is one. -/
inductive Action where
  | reply (reply : Reply) (ack : Option Ack)
  | returnResult (result : CmdResult) (ack : Option Ack)
  /-- keeps the current command in a slot; without one the slot stays as it is -/
  | hold (slot : String)
  | replyHeld (slot : String) (reply : Reply) (ack : Option Ack)
  | sendCmd (cmd : Cmd) (tag : String) (streaming : Bool) (followUp : List Action)
      (panicOn : List Nat)
  | send (msg : Message) (ack : Option Ack)
  | panic
  | stop
  | startDone
  | stopDone
  | deinitDone
  | phase
  | isPending (id : RequestId)
  | pendingSize
  | stats
  | tableStats
  | log (level : Int32) (site : LogSite) (message : String)
  | name

/-- What the tester does when a message of its own was handed over. -/
inductive Ack where
  | mk (tag : String) (followUp : List Action)

end

instance : Inhabited Action := ⟨.name⟩

/-- The name of a completion. -/
def Ack.tag : Ack → String
  | .mk tag _ => tag

/-- The actions of a completion. -/
def Ack.followUp : Ack → List Action
  | .mk _ followUp => followUp

/-- Actions by the name of a message; `*` stands for all other names. -/
abbrev Rules := List (String × List Action)

/-- The actions for a message of a given name. -/
def Rules.match? (rules : Rules) (name : String) : Option (List Action) :=
  (List.lookup name rules).orElse fun _ => List.lookup "*" rules

/-- Actions for the messages of each kind that a side can get. -/
structure MessageRules where
  cmd : Rules := []
  data : Rules := []
  audioFrame : Rules := []
  videoFrame : Rules := []

/-- The actions for a message; a result reaches nobody in this way. -/
def MessageRules.match? (rules : MessageRules) (msg : Message) : Option (List Action) :=
  match msg with
  | .cmd c => rules.cmd.match? c.name
  | .cmdResult _ => none
  | .data d => rules.data.match? d.name
  | .audioFrame f => rules.audioFrame.match? f.name
  | .videoFrame f => rules.videoFrame.match? f.name

/-- What an extension does. -/
structure ExtensionScript where
  onInit : List Action := []
  onStart : Option (List Action) := none
  rules : MessageRules := {}

/-- What a tester does; where nothing is said it acknowledges a phase at once. -/
structure TesterScript where
  onStart : Option (List Action) := none
  onStop : Option (List Action) := none
  onDeinit : Option (List Action) := none
  rules : MessageRules := {}

/-- The extension under test: one that follows a script, or one that answers pings. -/
inductive Extension where
  | scripted (script : ExtensionScript)
  | responder

/-- A callback of a foreign host: what it shows, and whether it then panics. -/
structure Callback where
  tag : String
  panics : Bool
deriving DecidableEq

/-- What a foreign host asks for. Raw numbers stand for messages and callbacks. -/
inductive ForeignCall where
  | create (msg : Message)
  | callback (callback : Callback)
  | take (message : UInt64)
  | releaseMessage (message : UInt64)
  | releaseCallback (callback : UInt64)
  | live
  | sendCmd (message callback : UInt64) (streaming : Bool)
  | sendData (message callback : UInt64)
  | sendAudioFrame (message callback : UInt64)
  | sendVideoFrame (message callback : UInt64)
  | returnResult (message callback : UInt64)
  | stop
  | startDone
  | stopDone
  | deinitDone
  | log (level : Int32) (site : LogSite) (message : String)
  | drop

/-- A step of a program that drives an application from outside. -/
inductive Step where
  /-- an action of the tester's side -/
  | act (action : Action)
  /-- actions of the extension's side -/
  | ext (actions : List Action)
  | dropApp
  | asyncCmd (tag : String) (cmd : Cmd)
  | asyncData (tag : String) (data : Data)
  | poll (tag : String)
  | dropFuture (tag : String)
  | foreign (call : ForeignCall)

end Switchboard.App
