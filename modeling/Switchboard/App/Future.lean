import Switchboard.App.Env
/-!
# Futures

A send whose end can be asked for later. The send happens at once; its handler or completion
keeps a promise, and the future is ready when the promise is kept or can no longer be.
-/
namespace Switchboard.App.Program

/-- Keeps a future under a tag, in place of any other. -/
def keepFuture (tag : String) (future : FutureSend) : Program Unit :=
  modify fun a => { a with futures := (tag, future) :: a.futures.filter (·.1 ≠ tag) }

/-- Sends a command now and keeps its future. -/
def sendCmdAsync (tag : String) (cmd : Cmd) : Program Unit := do
  let promise ← newPromise
  let sent ← sendCmd (.promise promise) cmd false
  keepFuture tag (.cmd (sent.map fun _ => promise))

/-- Sends data now and keeps its future. -/
def sendDataAsync (tag : String) (data : Data) : Program Unit := do
  let promise ← newPromise
  let sent ← send .tester (.data data) (some (.promise promise))
  keepFuture tag (.data (sent.map fun _ => promise))

/-- What a future has come to; nothing while its promise is pending. -/
def readiness (future : FutureSend) (promises : Array Promise) : Option Answer :=
  match future with
  | .cmd (.error e) => some (.outcome (.error e))
  | .cmd (.ok i) =>
    match promises.getD i .lost with
    | .pending | .sent => none
    | .outcome outcome => some (.outcome outcome)
    | .lost => some (.outcome (.error (.cancelled "result handler dropped")))
  | .data (.error e) => some (.readySend (.error e))
  | .data (.ok i) =>
    match promises.getD i .lost with
    | .pending | .outcome _ => none
    | .sent => some (.readySend (.ok ()))
    | .lost => some (.readySend (.error (.cancelled "completion handler dropped")))

/-- Asks a future; one that is ready is not kept any longer. -/
def poll (tag : String) : Program Answer := do
  let a ← get
  match a.futures.lookup tag with
  | none => return .noFuture
  | some future =>
    match readiness future a.promises with
    | none => return .notReady
    | some answer =>
      set { a with futures := a.futures.filter (·.1 ≠ tag) }
      return answer

/-- Gives a future up; tells whether it was there. -/
def dropFuture (tag : String) : Program Bool :=
  modifyGet fun a =>
    ((a.futures.lookup tag).isSome, { a with futures := a.futures.filter (·.1 ≠ tag) })

end Switchboard.App.Program
