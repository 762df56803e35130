import Switchboard.Message
/-!
# Faults

Everything that can go wrong between accepting a message and delivering its result, and the
numeric codes and status values in which a foreign host learns of it.
-/
namespace Switchboard

/-- What went wrong; all but an unknown request carry a text of their own. -/
inductive Fault where
  | invalidArgument (text : String)
  | invalidState (text : String)
  | cancelled (reason : String)
  | unknownRequest (id : RequestId)
  | dispatchFailure (text : String)
deriving DecidableEq

/-- The codes a foreign host sees; `ok` is the code of no fault. -/
inductive ErrorCode where
  | ok
  | invalidArgument
  | invalidState
  | cancelled
  | unknownRequest
  | dispatchFailure
deriving DecidableEq

namespace ErrorCode

/-- The number of a code. -/
def toInt32 : ErrorCode → Int32
  | ok => 0
  | invalidArgument => 1
  | invalidState => 2
  | cancelled => 3
  | unknownRequest => 4
  | dispatchFailure => 5

/-- The code with a given number, if there is one. -/
def ofInt32? (n : Int32) : Option ErrorCode :=
  if n = 0 then some ok
  else if n = 1 then some invalidArgument
  else if n = 2 then some invalidState
  else if n = 3 then some cancelled
  else if n = 4 then some unknownRequest
  else if n = 5 then some dispatchFailure
  else none

/-- The name of a code. -/
def name : ErrorCode → String
  | ok => "Ok"
  | invalidArgument => "InvalidArgument"
  | invalidState => "InvalidState"
  | cancelled => "Cancelled"
  | unknownRequest => "UnknownRequest"
  | dispatchFailure => "DispatchFailure"

@[simp] theorem ofInt32?_toInt32 (c : ErrorCode) : ofInt32? c.toInt32 = some c := by
  cases c <;> rfl

end ErrorCode

namespace Fault

/-- The code of a fault; never `ok`. -/
def code : Fault → ErrorCode
  | invalidArgument _ => .invalidArgument
  | invalidState _ => .invalidState
  | cancelled _ => .cancelled
  | unknownRequest _ => .unknownRequest
  | dispatchFailure _ => .dispatchFailure

/-- The fault in words. -/
def message : Fault → String
  | invalidArgument text => "invalid argument: " ++ text
  | invalidState text => "invalid state: " ++ text
  | cancelled reason => "cancelled: " ++ reason
  | unknownRequest id => "unknown request " ++ id.text
  | dispatchFailure text => "dispatch failure: " ++ text

/-- Whether the request was given up rather than failed. -/
def isCancelled : Fault → Bool
  | cancelled _ => true
  | _ => false

/-- A message that was rejected is an invalid argument. -/
def ofInvalid (e : InvalidMessage) : Fault := invalidArgument e.text

end Fault

/-- What a foreign host gets in place of a fault. -/
structure Status where
  code : Int32
  message : String
deriving DecidableEq

namespace Status

/-- The status of success. -/
def ok : Status := ⟨ErrorCode.ok.toInt32, ""⟩

/-- The status of a fault. -/
def ofFault (e : Fault) : Status := ⟨e.code.toInt32, e.message⟩

/-- The status of an operation: the value of a success is not shown. -/
def ofResult {α : Type} : Except Fault α → Status
  | .ok _ => ok
  | .error e => ofFault e

/-- Success is told by the code alone. -/
def isOk (s : Status) : Bool := s.code = ErrorCode.ok.toInt32

/-- The code of the status, if it is one of the known ones. -/
def errorCode? (s : Status) : Option ErrorCode := ErrorCode.ofInt32? s.code

/-- The status in words: `ok`, or the message with the code in brackets. -/
def text (s : Status) : String :=
  if s.isOk then "ok" else s.message ++ " (" ++ toString s.code.toInt ++ ")"

end Status

/-- What the handler of a command learns: a result of the command, or why there is none. -/
abbrev Outcome := Except Fault CmdResult

namespace Outcome

/-- A result that is not final leaves the command open; everything else ends it. -/
def isTerminal : Outcome → Bool
  | .ok result => result.isFinal
  | .error _ => true

end Outcome
end Switchboard
