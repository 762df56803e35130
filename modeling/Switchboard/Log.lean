import Switchboard.Fault
/-!
# Logging on behalf of a caller

A host logs lines with the place of its own call. Lines go to a logger as records, unless the
logger's limit is below their severity. The logger knows no fatal severity: a fatal line is an
error under a target of its own.
-/
namespace Switchboard

/-- The severities of a logger, the worst first. -/
inductive Severity where
  | error
  | warn
  | info
  | debug
  | trace
deriving DecidableEq

namespace Severity

/-- How much detail a severity stands for. -/
def detail : Severity → Nat
  | error => 1
  | warn => 2
  | info => 3
  | debug => 4
  | trace => 5

/-- The name of a severity in records. -/
def name : Severity → String
  | error => "ERROR"
  | warn => "WARN"
  | info => "INFO"
  | debug => "DEBUG"
  | trace => "TRACE"

end Severity

/-- The levels that a host may log at. -/
inductive LogLevel where
  | verbose
  | debug
  | info
  | warn
  | error
  | fatal
deriving DecidableEq

namespace LogLevel

/-- The number of a level. -/
def toInt32 : LogLevel → Int32
  | verbose => 1
  | debug => 2
  | info => 3
  | warn => 4
  | error => 5
  | fatal => 6

/-- The level with a given number; other numbers are refused. -/
def ofInt32 (n : Int32) : Except Fault LogLevel :=
  if n = 1 then .ok verbose
  else if n = 2 then .ok debug
  else if n = 3 then .ok info
  else if n = 4 then .ok warn
  else if n = 5 then .ok error
  else if n = 6 then .ok fatal
  else .error (.invalidArgument ("unknown log level " ++ toString n.toInt))

/-- The severity at which a line of this level is recorded. -/
def severity : LogLevel → Severity
  | verbose => .trace
  | debug => .debug
  | info => .info
  | warn => .warn
  | error | fatal => .error

/-- The target under which a line of this level is recorded. -/
def target : LogLevel → String
  | fatal => "tester::fatal"
  | verbose | debug | info | warn | error => "tester"

/-- Worse than an error. -/
def isAboveError (level : LogLevel) : Bool := level = fatal

@[simp] theorem ofInt32_toInt32 (level : LogLevel) : ofInt32 level.toInt32 = .ok level := by
  cases level <;> rfl

end LogLevel

/-- Where a line was logged. -/
structure LogSite where
  function : String
  file : String
  line : UInt32
deriving DecidableEq

namespace LogSite

/-- The form `function@file:line`. -/
def text (s : LogSite) : String :=
  s.function ++ "@" ++ s.file ++ ":" ++ toString s.line.toNat

end LogSite

/-- A line as a logger receives it. -/
structure LogRecord where
  severity : Severity
  target : String
  site : LogSite
  message : String
deriving DecidableEq

/-- The greatest detail that a logger lets pass; none at all when absent. -/
abbrev LogLimit := Option Severity

namespace LogLimit

/-- Whether a line of this severity passes. -/
def passes (limit : LogLimit) (severity : Severity) : Bool :=
  match limit with
  | none => false
  | some most => severity.detail ≤ most.detail

end LogLimit

/-- The records that a line leaves in a logger: itself, or nothing. -/
def LogLevel.emit (level : LogLevel) (limit : LogLimit) (site : LogSite) (message : String) :
    List LogRecord :=
  if limit.passes level.severity then
    [{ severity := level.severity, target := level.target, site, message }]
  else []

/-- The records of a line whose level is given by number; an unknown level is refused. -/
def LogRecord.ofLine (level : Int32) (limit : LogLimit) (site : LogSite) (message : String) :
    Except Fault (List LogRecord) :=
  (LogLevel.ofInt32 level).map (·.emit limit site message)

end Switchboard
