import Switchboard.Proofs.App.Drives
/-!
# The end of an application

However an application has come to be where it is, and however it ends, every command whose send
succeeded has been ended exactly once when it is dropped. Afterwards nothing can be sent any more,
and no handler is ever called again.
-/
namespace Switchboard.App

/-- What can happen to an application at any time. -/
inductive Move where
  /-- somebody makes a step from outside -/
  | step (s : Step)
  /-- somebody makes a step from outside, and both workers run until nothing is queued -/
  | stepAndSettle (s : Step)
  /-- a worker runs its oldest task -/
  | task (side : Side)
  /-- a tester is installed, and both sides are started -/
  | start (tester : TesterScript)
  /-- an announced phase is answered -/
  | answer (event : PhaseEvent)
  /-- somebody waits for a worker -/
  | flush (side : Side)
  /-- the time of a run is over -/
  | timeOut

/-- What a move does. -/
def Move.perform : Move → Program PUnit
  | step s => do let _ ← Program.perform s
  | stepAndSettle s => do let _ ← Program.stepAndSettle s
  | task side => do let _ ← Program.advance side
  | start tester => Program.startRun tester
  | answer event => do let _ ← Program.answerPhase event
  | flush side => do let _ ← (Program.worker side).step (·.flush false)
  | timeOut => do let _ ← Program.timeOut

/-- The application after a move. -/
def after (a : App) (m : Move) : App := (m.perform.run a).2

/-- The applications that a given one can become, by moves in any order. -/
inductive Reached (a : App) : App → Prop where
  | here : Reached a a
  | move {b : App} (m : Move) (h : Reached a b) : Reached a (b.after m)

/-- The ways in which an application ends. -/
inductive Ending where
  /-- it is dropped -/
  | drop
  /-- it is dropped, and between the steps of the drop other moves happen -/
  | dropAmid (aborted shuttingTester tested shuttingEngine : List Move)
  /-- a tester is run to the end, or until the time is over -/
  | run (tester : TesterScript)

/-- What an ending does. -/
def Ending.perform : Ending → Program PUnit
  | drop => do let _ ← Program.drop
  | dropAmid aborted shuttingTester tested shuttingEngine =>
    App.dropAmid (aborted.forM Move.perform) (shuttingTester.forM Move.perform)
      (tested.forM Move.perform) (shuttingEngine.forM Move.perform)
  | run tester => do let _ ← Program.runToEnd tester

/-- The application after an ending. -/
def ended (a : App) (e : Ending) : App := (e.perform.run a).2

/-- An application that was torn down: every command that was sent was ended once, nothing waits,
nothing can be sent, and both workers were shut down and have nothing to do. -/
structure TornDown (a : App) : Prop where
  once : ∀ i ∈ a.sent, (a.history i).countP Visit.isLastCall = 1
  size : a.router.table.size = 0
  closed : a.router.table.closed = true
  router : a.router.closed = true
  routes : a.router.routes = []
  shutDown : ∀ side, (a.worker side).accepting = false
  idle : ∀ side, (a.worker side).queue = []

section Moves

theorem stays_move (m : Move) : Stays m.perform := by
  cases m with
  | step s => exact (stays_perform s).bind fun _ => stays_pure _
  | stepAndSettle s => exact (stays_stepAndSettle s).bind fun _ => stays_pure _
  | task side => exact (stays_advance side).bind fun _ => stays_pure _
  | start tester => exact (keeps_startRun tester).stays
  | answer event => exact (keeps_answerPhase event).stays.bind fun _ => stays_pure _
  | flush side => exact (keeps_flush side).stays.bind fun _ => stays_pure _
  | timeOut => exact keeps_timeOut.stays.bind fun _ => stays_pure _

theorem stays_moves (moves : List Move) : Stays (moves.forM Move.perform) :=
  composes_stays.forM stays_move moves

/-- Moves keep an application steady. -/
theorem Reached.leads {a b : App} (h : Reached a b) (ha : a.Steady) : Leads a b := by
  induction h with
  | here => exact ha.leads
  | move m h ih => exact ih.trans (stays_move m _ ih.steady)

theorem ends_ending (e : Ending) : Ends e.perform := by
  cases e with
  | drop => exact ends_drop.bind fun _ => stays_pure _
  | dropAmid p q r s =>
    exact ends_dropAmid (stays_moves p) (stays_moves q) (stays_moves r) (stays_moves s)
  | run tester => exact (ends_runToEnd tester).bind fun _ => stays_pure _

end Moves

section Teardown

/-- A new application is steady. -/
theorem steady_ofParts (config : Config) (name : String) (properties : Json)
    (extension : Extension) : (ofParts config name properties extension).Steady where
  sound := by
    constructor
    · exact PendingTable.sharded_ofShards _
    · intro i c hfound
      simp [ofParts] at hfound
    · intro side task htask
      cases side with
      | tester => exact absurd htask List.not_mem_nil
      | engine =>
        obtain rfl := List.mem_singleton.mp htask
        trivial
    · intro i
      simp [endingsFor, ofParts, PendingTable.waitingFor, queuedIn, endingsOf, history,
        PendingTable.takenFor, PendingTable.ofShards, PendingTable.entries]
    · exact fun i hi => absurd hi List.not_mem_nil
    · exact List.nodup_nil
    · exact fun i hi => absurd hi List.not_mem_nil
    · intro side hside
      cases side with
      | tester => cases hside
      | engine => cases hside
  quiet i busyWith := by simp [stage, history, ofParts]
  atEnd hdropped := by cases hdropped

/-- What is built is a new application of some name. -/
theorem eq_ofParts_of_build {config : Config} {name : Option String} {properties : String}
    {extension : Extension} {a : App} (h : build config name properties extension = .ok a) :
    ∃ name properties, a = ofParts config name properties extension := by
  unfold build at h
  split at h
  · cases h
  · cases h
  · split at h
    · cases h
    · split at h
      · cases h
      · cases h
        exact ⟨_, _, rfl⟩

theorem steady_of_build {config : Config} {name : Option String} {properties : String}
    {extension : Extension} {a : App} (h : build config name properties extension = .ok a) :
    a.Steady := by
  obtain ⟨name, properties, rfl⟩ := eq_ofParts_of_build h
  exact steady_ofParts config name properties extension

/-- Of an application that is over, every command that was sent was ended once. -/
theorem Steady.tornDown {a : App} (ha : a.Steady) (hover : a.Over) : a.TornDown where
  once i hi := by
    have htaken := ha.sound.sent i hi
    have hlt := ha.sound.inRange i htaken
    have hfound : a.cells[i]? = some a.cells[i] := Array.getElem?_eq_getElem hlt
    have hcount : a.router.table.taken.count i = 1 :=
      List.count_eq_one_of_mem ha.sound.once htaken
    have hending : 0 < a.cells[i].ends := by
      have hendings := ha.sound.endings i
      have htester : a.testerWorker.queue = [] := (hover.drained .tester).queue
      have hengine : a.engineWorker.queue = [] := (hover.drained .engine).queue
      rw [endingsFor, PendingTable.waitingFor, hover.closing.entries, htester, hengine,
        PendingTable.takenFor, hcount, history_of_getElem? hfound] at hendings
      rw [Continuation.ends]
      simp only [List.countP_nil, queuedIn_nil, Pi.zero_apply] at hendings
      omega
    rw [history_of_getElem? hfound]
    exact ((ha.sound.orderly i _ hfound).ended (ha.quiet.of_getElem? hfound) hending).1
  size := by
    rw [PendingTable.size]
    exact congrArg List.length hover.closing.entries
  closed := hover.closing.table
  router := hover.closing.closed
  routes := hover.closing.routes
  shutDown side := (hover.drained side).accepting
  idle side := (hover.drained side).queue

/-- An application whose extension answers pings. -/
def responding : App := ofParts {} "echo" (.object []) .responder

end Teardown

end Switchboard.App
