import Switchboard.App.Env
/-!
# The extension that answers pings

It greets the tester when it starts, if a property asks for it, and answers every command: with
success when it is called `ping`, otherwise with an error. Every message called `ping` makes it
send one called `pong` of the same kind.
-/
namespace Switchboard.App.Responder

/-- The property with the text of the greeting. -/
def greetingKey : String := "greetingMsg"

/-- The greeting that the properties ask for: the text of one property, if it is a text. -/
def greetingOf (properties : Json) : Option String :=
  (properties.member? greetingKey).bind Json.string?

/-- The command that greets the tester. -/
def greetingCmd (greeting : String) : Cmd := { name := "greeting", payload := greeting.toUTF8.data.toList }

/-- The verdict on a command. -/
def verdictOn (cmd : Cmd) : Verdict := if cmd.name = "ping" then .ok else .error

/-- Remembers the greeting. -/
def onInit (properties : Json) : Program Unit :=
  modify fun a => { a with greeting := greetingOf properties }

/-- Greets the tester. -/
def onStart : Program Unit := do
  if let some greeting := (← get).greeting then
    let _ ← Program.sendCmd .silent (greetingCmd greeting) false

/-- Answers a message. A send that fails is given up. -/
def onMessage : Message → Program Unit
  | .cmd cmd => do
    let _ ← Program.returnResult .engine (.answering (verdictOn cmd) cmd) none
    if verdictOn cmd = .ok then
      let _ ← Program.sendCmd .silent { name := "pong" } false
  | .data data => do
    if data.name = "ping" then
      let _ ← Program.send .engine (.data { name := "pong" }) none
  | .audioFrame frame => do
    if frame.name = "ping" then
      let _ ← Program.send .engine (.audioFrame { name := "pong" }) none
  | .videoFrame frame => do
    if frame.name = "ping" then
      let _ ← Program.send .engine (.videoFrame { name := "pong" }) none
  | .cmdResult _ => return ()

end Switchboard.App.Responder
