import Switchboard.Proofs.Run.Numbering
/-!
# Parleys with the extension that answers pings

Whatever the extension does on a cue is planned when its worker takes the cue: it returns results and
sends messages, one after the other, whatever these operations answer. Meanwhile everybody else goes
on. A parley is a scene in which the extension keeps to its plan, the router is open and the tester's
worker takes jobs. It remembers which cues the extension has had, what was told to it, what it has
said and what the tester has got.
-/
namespace Switchboard

/-- The message of a kind that is called `pong` and is otherwise empty; results have no such. -/
def Kind.pong? : Kind → Option Message
  | cmd => some (.cmd { name := "pong" })
  | data => some (.data { name := "pong" })
  | audioFrame => some (.audioFrame { name := "pong" })
  | videoFrame => some (.videoFrame { name := "pong" })
  | cmdResult => none

/-- A message without its addresses. -/
def Message.bare : Message → Message
  | cmd c => cmd { c with dest := none, src := none, requestId := none }
  | cmdResult r => cmdResult { r with dest := none, requestId := none }
  | data d => data { d with dest := none }
  | audioFrame f => audioFrame { f with dest := none }
  | videoFrame f => videoFrame { f with dest := none }

namespace App

/-- What the extension is called for. -/
inductive Cue where
  | init (properties : Json)
  | start
  | message (msg : Message)

namespace Cue

/-- The cue that a task of the extension's worker is. -/
def ofTask? : Task Job → Option Cue
  | .job (.initExtension properties) => some (init properties)
  | .job .startExtension => some start
  | .job (.arrival msg) => some (message msg)
  | .job (.resume ..) | .job (.phase _) | .job (.completion _) | .mark => none

/-- The message that a cue brings. -/
def message? : Cue → Option Message
  | message msg => some msg
  | init _ | start => none

/-- Whether a cue starts the extension. -/
def isStart : Cue → Bool
  | start => true
  | init _ | message _ => false

/-- The greeting that the extension is to send when it is started, after a cue. -/
def greeting (before : Option String) : Cue → Option String
  | init properties => Responder.greetingOf properties
  | start | message _ => before

/-- The results that the extension returns on a cue. -/
def results : Cue → List CmdResult
  | message (.cmd cmd) => [.answering (Responder.verdictOn cmd) cmd]
  | message (.cmdResult _) | message (.data _) | message (.audioFrame _) | message (.videoFrame _)
  | init _ | start => []

/-- The messages that the extension sends on a cue. -/
def replies (greeting : Option String) : Cue → List Message
  | init _ => []
  | start => (greeting.map fun text => .cmd (Responder.greetingCmd text)).toList
  | message msg => if msg.name = "ping" then msg.kind.pong?.toList else []

end Cue

/-- How the extension sends a message. -/
def saying (a : App) : Message → Operation
  | .cmd cmd => .sendCmd .silent cmd false
  | .cmdResult result => .send (a.outlet .engine) (.cmdResult result)
  | .data data => .send (a.outlet .engine) (.data data)
  | .audioFrame frame => .send (a.outlet .engine) (.audioFrame frame)
  | .videoFrame frame => .send (a.outlet .engine) (.videoFrame frame)

/-- The application after the extension has looked what it is called for. -/
def cued (a : App) (cue : Cue) : App := { a with greeting := cue.greeting a.greeting }

/-- What the extension does on a cue. -/
def Cue.plan (a : App) (cue : Cue) : List Operation :=
  cue.results.map .returnResult ++ (cue.replies a.greeting).map a.saying

/-- Performs operations in order, whatever they answer. -/
def Program.performAll (ops : List Operation) : Program PUnit :=
  ops.forM fun op => do
    let _ ← op.perform

/-- A message makes the extension carry out its plan. -/
theorem run_onMessage (a : App) (msg : Message) :
    (Responder.onMessage msg).run a =
      (Program.performAll ((Cue.message msg).plan a)).run a := by
  cases msg with
  | cmd cmd =>
    by_cases hname : cmd.name = "ping"
    · have hverdict : Responder.verdictOn cmd = .ok := if_pos hname
      simp only [Responder.onMessage, Cue.plan, Cue.results, Cue.replies, Message.name, hverdict, hname,
        if_true]
      rfl
    · have hverdict : Responder.verdictOn cmd = .error := if_neg hname
      simp only [Responder.onMessage, Cue.plan, Cue.results, Cue.replies, Message.name, hverdict, hname,
        if_false, reduceCtorEq]
      rfl
  | data packet | audioFrame packet | videoFrame packet =>
    by_cases hname : packet.name = "ping"
    · simp only [Responder.onMessage, Cue.plan, Cue.replies, Message.name, hname, if_true]
      rfl
    · simp only [Responder.onMessage, Cue.plan, Cue.replies, Message.name, hname, if_false]
      rfl
  | cmdResult result =>
    -- whatever it is called, there is no result called `pong`
    rw [Cue.plan, Cue.replies]
    split
    · rfl
    · rfl

/-- On a cue the extension carries out its plan, and does nothing else. -/
theorem run_cue {a : App} (h : a.extension = .responder) {job : Job} {cue : Cue}
    (hcue : Cue.ofTask? (.job job) = some cue) :
    (Program.runJob .engine job).run a =
      (.ok (), ((Program.performAll (cue.plan (a.cued cue))).run (a.cued cue)).2) := by
  have hget : (get : Program App).run a = (a, a) := rfl
  cases job with
  | resume | phase | completion => cases hcue
  | initExtension properties =>
    cases hcue
    rw [Program.runJob, Program.initExtension, run_bind, hget]
    dsimp only
    rw [h]
    rfl
  | startExtension =>
    cases hcue
    rw [Program.runJob, Program.startExtension, run_bind, hget]
    dsimp only
    rw [h]
    dsimp only
    rw [run_bind, Responder.onStart, run_bind, hget]
    change _ = (_, ((Program.performAll ((a.greeting.map _).toList.map _)).run a).2)
    cases a.greeting with
    | none => rfl
    | some text => rfl
  | arrival msg =>
    cases hcue
    rw [Program.runJob, Program.handleArrival, run_bind, hget]
    dsimp only
    rw [h]
    dsimp only
    rw [run_bind, run_onMessage]
    rfl

/-- What the extension is called for when its worker takes a task. -/
def Deed.cues (s : Scene) (deed : Deed) : List Cue := (deed.taken s .engine).filterMap Cue.ofTask?

/-- A scene in which the extension keeps to its plan. -/
structure Parley where
  scene : Scene
  /-- what the extension is still to do on its last cue -/
  plan : List Operation := []
  /-- what the extension was called for -/
  cues : List Cue := []
  /-- what the extension has sent and the tester was handed -/
  said : List Message := []
  /-- what the extension was handed, each message with the number that the next continuation had -/
  told : List (Nat × Message) := []
  /-- what the tester was handed, whoever has sent it -/
  got : List Message := []

/-- What may happen next in a parley: something that others do, or the next of what the extension has
planned. -/
inductive Part where
  | deed (deed : Deed)
  | reply

namespace Parley

/-- A parley with a new application. -/
def ofApp (a : App) : Parley := { scene := .ofApp a }

/-- Whether others may do something. They may do anything, but they leave it to the extension to
answer the commands that it was told; and its worker ends no job before the plan was carried out. -/
def allows (p : Parley) : Deed → Bool
  | .act (.operate (.returnResult result)) => result.requestId.all fun id =>
    p.told.all (·.2.requestId ≠ some id) || p.got.any (·.requestId = some id)
  | .act (.finish .engine ended) => ended.isOk && p.plan.isEmpty
  | .act (.operate (.sendCmd ..)) | .act (.operate (.send ..)) | .act (.operate (.complete _))
  | .act (.operate .stop) | .act (.operate .await) | .act (.operate (.acknowledge _))
  | .act (.finish .tester _) | .act (.note _) | .act (.take _) | .act (.call _) | .act .proceed
  | .giveUp => true

/-- The parley after something has happened to its scene. A cue is heeded at once. -/
def after (p : Parley) (deed : Deed) (plan : List Operation) (said : List Message) (s : Scene) :
    Parley :=
  let cues := deed.cues p.scene
  let app := cues.foldl cued s.app
  { scene := { s with app }
    plan := plan ++ cues.flatMap (Cue.plan app)
    cues := p.cues ++ cues
    said := p.said ++ said
    told := p.told ++ (deed.handed p.scene .engine).map (p.scene.app.cells.size, ·)
    got := p.got ++ deed.handed p.scene .tester }

/-- Something happens, if it is possible. The router stays open, and nobody but the extension takes
its notes. -/
def follow (p : Parley) (deed : Deed) (plan : List Operation) (said : List Message) : Option Parley :=
  (p.scene.undergo deed).bind fun s =>
    if s.app.router.closed = false ∧ s.app.greeting = p.scene.app.greeting then
      some (p.after deed plan said s)
    else none

/-- What becomes of a parley by a part of it, if that may happen. -/
def step (p : Parley) : Part → Option Parley
  | .deed deed => if p.allows deed then p.follow deed p.plan [] else none
  | .reply =>
    match p.plan with
    | [] => none
    | op :: plan =>
      let deed : Deed := .act (.operate op)
      p.follow deed plan (deed.handed p.scene .tester)

/-- What becomes of a parley by parts that follow each other. -/
def run (p : Parley) : List Part → Option Parley
  | [] => some p
  | part :: parts => (p.step part).bind fun p => p.run parts

/-- What is done in a part of a parley, what is left of the plan, and what the extension says by it. -/
inductive Does (p : Parley) : Deed → List Operation → List Message → Prop where
  | other {deed : Deed} (h : p.allows deed = true) : Does p deed p.plan []
  | reply {op : Operation} {plan : List Operation} (h : p.plan = op :: plan) :
    Does p (.act (.operate op)) plan (Deed.handed p.scene .tester (.act (.operate op)))

theorem step_eq_some {p p' : Parley} {part : Part} (h : p.step part = some p') :
    ∃ deed plan said s, p.Does deed plan said ∧ p.scene.undergo deed = some s ∧
      s.app.router.closed = false ∧ s.app.greeting = p.scene.app.greeting ∧
      p' = p.after deed plan said s := by
  have hfollow {deed : Deed} {plan : List Operation} {said : List Message}
      (hdoes : p.Does deed plan said) (h : p.follow deed plan said = some p') :
      ∃ deed plan said s, p.Does deed plan said ∧ p.scene.undergo deed = some s ∧
        s.app.router.closed = false ∧ s.app.greeting = p.scene.app.greeting ∧
        p' = p.after deed plan said s := by
    obtain ⟨s, hdeed, hs⟩ := Option.bind_eq_some_iff.mp h
    split at hs
    · next hstays => exact ⟨deed, plan, said, s, hdoes, hdeed, hstays.1, hstays.2,
        (Option.some.inj hs).symm⟩
    · cases hs
  cases part with
  | deed deed =>
    rw [step] at h
    split at h
    · next hallows => exact hfollow (.other hallows) h
    · cases h
  | reply =>
    rw [step] at h
    split at h
    · cases h
    · next hplan => exact hfollow (.reply hplan) h

end Parley
end App
end Switchboard
