/-!
# Messages

The values that travel between a tester and the extension under test: commands, their results,
data packets, audio and video frames. Payloads are opaque bytes. A message may name its
destination; a command also carries the sender and the request it belongs to, both of which a
router stamps when the command is sent.
-/
namespace Switchboard

/-- Number of a request that waits for its result. -/
structure RequestId where
  value : UInt64
deriving DecidableEq

namespace RequestId

/-- The form `req#7` used in every text that names a request. -/
def text (id : RequestId) : String := "req#" ++ toString id.value.toNat

end RequestId

/-- Where a message comes from or goes to. -/
inductive Loc where
  | tester
  | extension (name : String)
deriving DecidableEq

namespace Loc

/-- What stands before the name of an extension. -/
def extensionMark : String := "extension:"

/-- The written form: `tester`, or `extension:` and the name. -/
def text : Loc → String
  | tester => "tester"
  | extension name => extensionMark ++ name

/-- Reads the written form back; the name is all that follows the first mark. -/
def ofText? (s : String) : Option Loc :=
  if s = "tester" then some tester
  else if extensionMark.toList.isPrefixOf s.toList then
    some (extension (String.ofList (s.toList.drop extensionMark.toList.length)))
  else none

end Loc

/-- The five kinds of message. -/
inductive Kind where
  | cmd
  | cmdResult
  | data
  | audioFrame
  | videoFrame
deriving DecidableEq

namespace Kind

/-- The name of the kind in texts. -/
def text : Kind → String
  | cmd => "cmd"
  | cmdResult => "cmd_result"
  | data => "data"
  | audioFrame => "audio_frame"
  | videoFrame => "video_frame"

/-- The kinds that are sent without waiting for an answer. -/
def isOneWay : Kind → Bool
  | data | audioFrame | videoFrame => true
  | cmd | cmdResult => false

end Kind

/-- The bytes that a message carries; nothing here looks inside them. -/
abbrev Payload := List UInt8

/-- Whether a command was carried out. -/
inductive Verdict where
  | ok
  | error
deriving DecidableEq

/-- A request to the other side. -/
structure Cmd where
  name : String
  payload : Payload := []
  dest : Option Loc := none
  src : Option Loc := none
  requestId : Option RequestId := none
deriving DecidableEq

/-- An answer to a command. One that is not final announces more to come. -/
structure CmdResult where
  verdict : Verdict
  requestId : Option RequestId := none
  cmdName : String := ""
  dest : Option Loc := none
  payload : Payload := []
  detail : Option String := none
  isFinal : Bool := true
deriving DecidableEq

namespace CmdResult

/-- The empty final answer to `cmd`: it goes back to the sender under the request of `cmd`. -/
def answering (verdict : Verdict) (cmd : Cmd) : CmdResult :=
  { verdict, requestId := cmd.requestId, cmdName := cmd.name, dest := cmd.src }

end CmdResult

/-- What an answer says, apart from the command that it answers. -/
structure Reply where
  verdict : Verdict
  payload : Payload := []
  detail : Option String := none
  isFinal : Bool := true
deriving DecidableEq

namespace Reply

/-- The answer to a command. -/
def answering (r : Reply) (cmd : Cmd) : CmdResult :=
  { CmdResult.answering r.verdict cmd with
    payload := r.payload, detail := r.detail, isFinal := r.isFinal }

/-- The answer to no command in particular. -/
def detached (r : Reply) (requestId : Option RequestId) (cmdName : String) (dest : Option Loc) :
    CmdResult :=
  { verdict := r.verdict, requestId, cmdName, dest,
    payload := r.payload, detail := r.detail, isFinal := r.isFinal }

end Reply

/-- A packet of data. -/
structure Data where
  name : String
  payload : Payload := []
  dest : Option Loc := none
deriving DecidableEq

/-- A piece of sound; an empty one is 16 kHz mono. -/
structure AudioFrame where
  name : String
  payload : Payload := []
  timestamp : Int64 := 0
  sampleRate : UInt32 := 16000
  channels : UInt16 := 1
  dest : Option Loc := none
deriving DecidableEq

/-- A picture. -/
structure VideoFrame where
  name : String
  payload : Payload := []
  width : UInt32 := 0
  height : UInt32 := 0
  timestamp : Int64 := 0
  dest : Option Loc := none
deriving DecidableEq

/-- Anything that a router can carry. -/
inductive Message where
  | cmd (cmd : Cmd)
  | cmdResult (result : CmdResult)
  | data (data : Data)
  | audioFrame (frame : AudioFrame)
  | videoFrame (frame : VideoFrame)
deriving DecidableEq

/-- Why a message was rejected before it was sent. -/
inductive Defect where
  | nameMissing
  | unbound
deriving DecidableEq

namespace Defect

/-- The reason as it is told to the sender. -/
def text : Defect → String
  | nameMissing => "name is required"
  | unbound => "result is not bound to a command"

end Defect

/-- A rejected message: its kind and what was wrong with it. -/
structure InvalidMessage where
  kind : Kind
  defect : Defect
deriving DecidableEq

namespace InvalidMessage

/-- The rejection in words. -/
def text (e : InvalidMessage) : String :=
  "invalid " ++ e.kind.text ++ ": " ++ e.defect.text

end InvalidMessage

/-- All messages but results need a name. -/
def requireName (kind : Kind) (name : String) : Except InvalidMessage Unit :=
  if name = "" then .error ⟨kind, .nameMissing⟩ else .ok ()

namespace Cmd

/-- A command can be sent if it has a name. -/
def validate (c : Cmd) : Except InvalidMessage Unit := requireName .cmd c.name

end Cmd

namespace CmdResult

/-- A result can be sent if it answers a request. -/
def validate (r : CmdResult) : Except InvalidMessage Unit :=
  match r.requestId with
  | some _ => .ok ()
  | none => .error ⟨.cmdResult, .unbound⟩

end CmdResult

namespace Message

/-- The kind of the message. -/
def kind : Message → Kind
  | cmd _ => .cmd
  | cmdResult _ => .cmdResult
  | data _ => .data
  | audioFrame _ => .audioFrame
  | videoFrame _ => .videoFrame

/-- The name of the message; a result has the name of its command. -/
def name : Message → String
  | cmd c => c.name
  | cmdResult r => r.cmdName
  | data d => d.name
  | audioFrame f => f.name
  | videoFrame f => f.name

/-- The destination that the message names, if any. -/
def dest : Message → Option Loc
  | cmd c => c.dest
  | cmdResult r => r.dest
  | data d => d.dest
  | audioFrame f => f.dest
  | videoFrame f => f.dest

/-- The message with its destination replaced. -/
def withDest (m : Message) (target : Loc) : Message :=
  match m with
  | cmd c => cmd { c with dest := some target }
  | cmdResult r => cmdResult { r with dest := some target }
  | data d => data { d with dest := some target }
  | audioFrame f => audioFrame { f with dest := some target }
  | videoFrame f => videoFrame { f with dest := some target }

/-- The request that a command or a result belongs to. -/
def requestId : Message → Option RequestId
  | cmd c => c.requestId
  | cmdResult r => r.requestId
  | data _ | audioFrame _ | videoFrame _ => none

/-- The bytes that the message carries. -/
def payload : Message → Payload
  | cmd c => c.payload
  | cmdResult r => r.payload
  | data d => d.payload
  | audioFrame f => f.payload
  | videoFrame f => f.payload

/-- Checks what every message of its kind must carry. -/
def validate : Message → Except InvalidMessage Unit
  | cmd c => c.validate
  | cmdResult r => r.validate
  | data d => requireName .data d.name
  | audioFrame f => requireName .audioFrame f.name
  | videoFrame f => requireName .videoFrame f.name

@[simp] theorem kind_withDest (m : Message) (target : Loc) :
    (m.withDest target).kind = m.kind := by
  cases m <;> rfl

@[simp] theorem dest_withDest (m : Message) (target : Loc) :
    (m.withDest target).dest = some target := by
  cases m <;> rfl

@[simp] theorem name_withDest (m : Message) (target : Loc) :
    (m.withDest target).name = m.name := by
  cases m <;> rfl

@[simp] theorem payload_withDest (m : Message) (target : Loc) :
    (m.withDest target).payload = m.payload := by
  cases m <;> rfl

end Message
end Switchboard
