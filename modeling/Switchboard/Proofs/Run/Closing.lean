import Switchboard.Proofs.Router.Closing
import Switchboard.Proofs.Run.Stop
/-!
# A closed router never forwards again

A router is closed directly, by the first stop of a run that was started, or when an application is
given up or dropped. Whatever happens afterwards, it stays closed and refuses whatever is sent.
-/
namespace Switchboard

namespace App

/-- The router of an application is closed: whatever is sent is refused, and nothing at all
happens. -/
structure Refuses (a : App) : Prop where
  closed : a.router.closed = true
  sendCmd : ∀ (p : Outlet Side) (cmd : Cmd) (cell : Nat) (streaming : Bool),
    (p.sendCmd Program.fabric cmd cell streaming).run a = (.error cmd.refusal, a)
  send : ∀ (p : Outlet Side) (msg : Message),
    (p.send Program.fabric msg).run a = (.error msg.refusal, a)

theorem refuses_of_closed {a : App} (h : a.router.closed = true) : a.Refuses where
  closed := h
  sendCmd := Fabric.run_sendCmd_of_closed _ (fun _ => rfl) h
  send := Fabric.run_send_of_closed _ (fun _ => rfl) h

namespace Scene

variable {owners : List Side} {s s' : Scene}

/-- The runner does not open the router. -/
theorem Lasting.closed_proceed (h : s.Lasting owners) (hclosed : s.app.router.closed = true)
    (hproceed : s.proceed = some s') : s'.app.router.closed = true := by
  rcases proceed_cases hproceed with ⟨α, p, next, hp, rfl, -, -⟩ | ⟨-, rfl⟩ |
    ⟨side, -, rfl⟩ | ⟨-, rfl⟩
  · exact (congrArg Router.closed (hp.router s.app)).trans hclosed
  · exact (h.accounted.sound.abort "tester dropped").closed
  · exact (congrArg Router.closed (router_setWorker s.app side _)).trans hclosed
  · exact hclosed

/-- Nothing that happens opens the router. -/
theorem Lasting.closed_undergo (h : s.Lasting owners) (hclosed : s.app.router.closed = true)
    {deed : Deed} (hdeed : s.undergo deed = some s') : s'.app.router.closed = true := by
  cases deed with
  | giveUp =>
    rcases giveUp_eq_some hdeed with ⟨-, rfl⟩ | ⟨_, -, rfl⟩
    · exact hclosed
    · exact (h.accounted.sound.abort "run timed out").closed
  | act act =>
    cases act with
    | operate op =>
      cases hdeed
      exact (op.keeps s.app 0 h.accounted.sound).2.persists.closed hclosed
    | note notes =>
      cases hdeed
      exact hclosed
    | take side =>
      obtain ⟨hunshaken, -⟩ := unshaken_take hdeed
      rw [hunshaken.router]
      exact (congrArg Router.closed (router_setWorker s.app side _)).trans hclosed
    | finish side ended =>
      obtain ⟨hunshaken, -⟩ := unshaken_finish hdeed
      exact (congrArg Router.closed hunshaken.router).trans hclosed
    | call tester =>
      obtain ⟨-, rfl⟩ := call_eq_some hdeed
      exact hclosed
    | proceed => exact h.closed_proceed hclosed hdeed

/-- A closed router stays closed along every course. -/
theorem Lasting.closed_course (h : s.Lasting owners) (hclosed : s.app.router.closed = true)
    {deeds : List Deed} (hcourse : s.course deeds = some s') : s'.app.router.closed = true := by
  induction deeds generalizing s owners with
  | nil =>
    cases hcourse
    exact hclosed
  | cons deed deeds ih =>
    obtain ⟨next, hdeed, hrest⟩ := Option.bind_eq_some_iff.mp hcourse
    obtain ⟨owners', -, hnext⟩ := h.undergo hdeed
    exact ih hnext (h.closed_undergo hclosed hdeed) hrest

end Scene

end App

open Exchange

/-- A router that is closed at any point of a run stays closed, whatever is done to it later, by
endpoints too. It refuses all commands and messages, because they are invalid or because it is
closed, and nothing at all happens. Requests that were waiting wait on until a result, a fault or a
cancellation ends them, and fare as if the router had never been closed and nobody sent anything.

In an application the first stop of a started run closes the router, and so does whoever gives it up
or drops it; and again it stays closed whatever happens, and refuses everything. -/
theorem closing_is_final {κ ε η : Type} (shards : Nat) (routes : List (Loc × η))
    (before : List (Stroke κ ε η)) {closing : Stroke κ ε η} (hcloses : closing.closes = true)
    (after : List (Stroke κ ε η)) {config : Config} {name : Option String} {properties : String}
    {extension : App.Extension} {built : App}
    (hbuilt : App.build config name properties extension = .ok built) {deeds : List App.Deed}
    {s : App.Scene} (hcourse : (App.Scene.ofApp built).course deeds = some s) :
    let amid := before.foldl stroked (ofRoutes shards routes)
    let shut := amid.stroked closing
    StaysClosed amid shut after (after.foldl stroked shut) ∧
    (∀ (conduct : Conduct κ ε η) (x : Exchange κ ε η), ∃ strokes : List (Stroke κ ε η),
      (conduct.run.run x).2 = strokes.foldl stroked x) ∧
    (s.app.lifecycle.phase = .started →
      ∀ inside, ((App.Program.stop inside).run s.app).2.router.closed = true) ∧
    (∀ reason, ((App.Program.abort reason).run s.app).2.router.closed = true) ∧
    (s.runner.dropping = true → s.app.router.closed = true) ∧
    (s.app.router.closed = true →
      ∀ later s', s.course later = some s' → s'.app.Refuses) := by
  intro amid shut
  obtain ⟨owners, -, hs⟩ := (App.Scene.lasting_ofApp hbuilt).course hcourse
  refine ⟨?_, fun conduct => conduct.inStrokes, fun hstarted inside => ?_, fun reason => ?_,
    fun hdrops => (hs.hushed hdrops).closed, fun hclosed later s' hlater => ?_⟩
  · exact staysClosed (sharded_foldl (PendingTable.sharded_ofShards shards) before) hcloses after
  · obtain ⟨-, hstops⟩ := hs.accounted.placed.stops hs.accounted.sound hstarted inside
    exact hstops.hushed.closed
  · exact (hs.accounted.sound.abort reason).closed
  · exact App.refuses_of_closed (hs.closed_course hclosed hlater)

/-- A request that waits for all results. -/
def awaited : PendingRequest (String × Nat) Nat :=
  { continuation := ("ping", 0), executor := 0, streaming := true }

/-- The request waits when the router is closed. Then an endpoint is added, and somebody tries to let
another request wait. -/
def closedAmid : Exchange String Nat Unit :=
  [Stroke.addRoute .tester (), .accept awaited].foldl stroked
    (([Stroke.tick, .accept awaited].foldl stroked (ofRoutes 2 [])).stroked .clearRoutes)

/-- The request still gets its result. An application that was stopped refuses everything. -/
theorem closedAmid_answers :
    closedAmid.router.closed = true ∧ closedAmid.router.table.find? ⟨1⟩ = some awaited ∧
      ((desk.returnResult { verdict := .ok, requestId := some ⟨1⟩ }).run closedAmid).2.queued =
        [awaited.deliver ⟨1⟩ (.ok { verdict := .ok, requestId := some ⟨1⟩ }) true] ∧
      ∃ s, (App.Scene.ofApp App.responding).course
        (App.Scene.pinging ++ [.act (.operate .stop)]) = some s ∧ s.app.Refuses := by
  have hbuilt : App.build {} (some "echo") "" .responder = .ok App.responding := rfl
  have hend : ((App.Scene.ofApp App.responding).course
      (App.Scene.pinging ++ [.act (.operate .stop)])).map (·.app.router.closed) = some true := by
    decide +kernel
  obtain ⟨s, hcourse, hclosed⟩ := Option.map_eq_some_iff.mp hend
  have hcloses : (Stroke.clearRoutes : Stroke String Nat Unit).closes = true := rfl
  obtain ⟨hshut, -, -, -, -, hrefuses⟩ := closing_is_final 2 [] [Stroke.tick, .accept awaited]
    hcloses [Stroke.addRoute .tester (), .accept awaited] hbuilt hcourse
  obtain ⟨hwaits, hresults⟩ := hshut.waits ⟨1⟩ awaited rfl (by simp [Stroke.ending?])
  refine ⟨hshut.closed, hwaits, ?_, s, hcourse, hrefuses hclosed [] s rfl⟩
  exact congrArg (fun ended => ended.2.queued)
    (hresults { verdict := .ok, requestId := some ⟨1⟩ } rfl rfl)

end Switchboard
