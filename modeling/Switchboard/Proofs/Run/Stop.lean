import Switchboard.Proofs.Run.Befalling
/-!
# A stop is a wave of cancellations

The first stop of a run that was started cancels whatever waits, each request once and nothing else,
and closes everything for good. Before the start a stop is refused and after it there is nothing
left to do; neither changes anything. Somebody outside the tester's worker waits for a mark behind
the cancellations, and when it is his turn the tester has handled all of them.
-/
namespace Switchboard.App

/-- Why whatever waits is cancelled by a stop. -/
def stopped : Outcome := .error (.cancelled "test stopped")

/-- The task by which a request is cancelled when the run is stopped. -/
def cancellation (e : RequestId × PendingRequest Nat Side) : Task Job :=
  .job (.resume e.2.continuation stopped true)

/-- The marks that a stop leaves in the queue of a side: one in the tester's, if somebody outside of
it stops the run and it takes tasks. -/
def marks (inside : Bool) (a : App) : Side → List (Task Job)
  | .tester => if inside = false ∧ (a.worker .tester).accepting = true then [.mark] else []
  | .engine => []

/-- What the first stop of a run that was started leaves behind. -/
structure Stops (inside : Bool) (a a' : App) : Prop where
  phase : a'.lifecycle.phase = .stopping
  hushed : a'.Hushed
  size : a'.router.table.size = 0
  /-- each request that was waiting is cancelled once, with the worker of its side -/
  queue : ∃ waiting : List (RequestId × PendingRequest Nat Side),
    waiting.Perm a.router.table.entries ∧ ∀ side,
    (a'.worker side).queue = (a.worker side).queue ++
      (waiting.filter (·.2.executor = side)).map cancellation ++ marks inside a side

section Stops

variable {owners : List Side} {a : App} {inside : Bool}

/-- The first stop is a stop of the run, and then somebody outside leaves a mark. -/
theorem run_stop_of_first (h : a.lifecycle.phase = .started) (inside : Bool) :
    (Program.stop inside).run a = (.ok (),
      if inside = false then (Operation.await.perform.run (Operation.stop.perform.run a).2).2
      else (Operation.stop.perform.run a).2) := by
  have hstep : (Program.lifecycle.step Lifecycle.enterStopping).run a = (.ok true, a.stopping) := by
    change (a.lifecycle.enterStopping.1, { a with lifecycle := a.lifecycle.enterStopping.2 }) = _
    rw [Lifecycle.enterStopping, h]
    rfl
  have hstop : (Lifecycle.beginStop (ε := Empty) Program.lifecycle do
      let _ ← Program.tearDown "test stopped"
      return .ok ()).run a = (.ok (.ok true), (Operation.stop.perform.run a).2) := by
    change _ = (_, ((Lifecycle.beginStop Program.lifecycle _).run a).2)
    rw [Lifecycle.beginStop, run_bind, hstep]
    rfl
  rw [Program.stop, run_bind, hstop]
  cases inside
  · rfl
  · rfl

/-- Deliveries are queued on the workers of their sides, in order. -/
theorem queue_submitAll (hopen : a.Open) (deliveries : List (Delivery Nat Side)) (side : Side) :
    (((deliveries.forM Program.submit).run a).2.worker side).queue =
      (a.worker side).queue ++ (deliveries.filter (·.executor = side)).map taskOf := by
  induction deliveries generalizing a with
  | nil => exact (List.append_nil _).symm
  | cons d deliveries ih =>
    have hrun : ((d :: deliveries).forM Program.submit).run a =
        (deliveries.forM Program.submit).run ((Program.submit d).run a).2 := rfl
    have hopen' : (a.enqueued d.executor (taskOf d)).Open := by
      intro other
      rw [enqueued, worker_setWorker]
      split
      · exact hopen d.executor
      · exact hopen other
    rw [hrun, run_submit hopen, ih hopen', enqueued, worker_setWorker, List.filter_cons]
    by_cases heq : d.executor = side
    · subst heq
      simp
    · simp [heq]

/-- Everything that waits is cancelled. -/
theorem queue_cancelAll (ha : a.Placed owners) (reason : String) (side : Side) :
    (((Program.fabric.cancelAll reason).run a).2.worker side).queue =
      (a.worker side).queue ++ (a.router.table.pending.filter (·.2.executor = side)).map
        fun e => .job (.resume e.2.continuation (.error (.cancelled reason)) true) := by
  have hrun : ((Program.fabric.cancelAll reason).run a).2 =
      (((a.router.table.cancelAll reason).2.1.forM Program.submit).run
        (a.handed (·.cancelAll reason))).2 := rfl
  rw [hrun]
  by_cases hempty : a.router.table.entries = []
  · have hpending : a.router.table.pending = [] := (hempty ▸ a.router.table.pending_perm).eq_nil
    have hnothing : (a.router.table.cancelAll reason).2.1 = [] := by
      rw [PendingTable.cancelAll, hpending]
      rfl
    rw [hnothing, hpending]
    cases side
    · exact (List.append_nil _).symm
    · exact (List.append_nil _).symm
  · have hopen : (a.handed (·.cancelAll reason)).Open := by
      intro other
      by_contra hshut
      exact hempty (ha.shut other (Bool.not_eq_true _ ▸ hshut)).2
    rw [queue_submitAll hopen, PendingTable.cancelAll, List.filter_map, List.map_map]
    cases side
    · rfl
    · rfl

/-- The first stop cancels each request once and nothing else, and closes everything. -/
theorem Placed.stops (ha : a.Placed owners) (hsound : a.Sound 0)
    (hstarted : a.lifecycle.phase = .started) (inside : Bool) :
    ((Program.stop inside).run a).1 = .ok () ∧
      Stops inside a ((Program.stop inside).run a).2 := by
  have hplaced : a.stopping.Placed owners := ha.unmoved ⟨rfl, fun _ => rfl, rfl⟩
  have hclosed : { a.stopping with router := a.router.close }.Placed owners :=
    hplaced.setRouter ha.sharded id ha.entries
  have hphase := ha.phase_stop hstarted
  have hhushed : (Operation.stop.perform.run a).2.Hushed := by
    rw [run_stop_of_started hstarted]
    exact (hplaced.hushed_tearDown "test stopped").of_router rfl
  have hqueue (side : Side) : ((Operation.stop.perform.run a).2.worker side).queue =
      (a.worker side).queue ++
        (a.router.table.pending.filter (·.2.executor = side)).map cancellation := by
    have hcancelled := queue_cancelAll hclosed "test stopped" side
    rw [run_stop_of_started hstarted]
    cases side
    · exact hcancelled
    · exact hcancelled
  have haccepting : ((Operation.stop.perform.run a).2.worker .tester).accepting =
      (a.worker .tester).accepting :=
    (Operation.stop.keeps a 0 hsound).2.persists.accepting .tester
  rw [run_stop_of_first hstarted inside]
  refine ⟨rfl, ?_⟩
  cases inside with
  | true =>
    refine ⟨hphase, hhushed, ?_, _, a.router.table.pending_perm, fun side => ?_⟩
    · exact congrArg List.length hhushed.entries
    · cases side
      · exact (hqueue .tester).trans (List.append_nil _).symm
      · exact (hqueue .engine).trans (List.append_nil _).symm
  | false =>
    set b := (Operation.stop.perform.run a).2
    have hrouter : (Operation.await.perform.run b).2.router = b.router :=
      router_setWorker b .tester _
    have hlifecycle : (Operation.await.perform.run b).2.lifecycle = b.lifecycle :=
      lifecycle_setWorker b .tester _
    refine ⟨?_, hhushed.of_router hrouter, ?_, _, a.router.table.pending_perm, fun side => ?_⟩
    · exact (congrArg Lifecycle.phase hlifecycle).trans hphase
    · exact congrArg List.length (hhushed.of_router hrouter).entries
    · rw [← hqueue]
      change ((b.setWorker .tester ((b.worker .tester).accept .mark).2).worker side).queue = _
      rw [worker_setWorker]
      cases side with
      | engine => exact (List.append_nil _).symm
      | tester =>
        rw [if_pos rfl, marks, ← haccepting, Worker.accept]
        cases (b.worker .tester).accepting
        · exact (List.append_nil _).symm
        · rfl

end Stops

namespace Scene

/-- What a deed leaves as it was: all that has happened at continuations, and what is queued for the
tester, but for the task that its worker takes when it is idle. -/
structure Onward (deed : Deed) (s s' : Scene) : Prop where
  history : ∀ i, s.app.history i <+: s'.app.history i
  queue : deed.takesTester = false →
    (s.app.worker .tester).queue <+: (s'.app.worker .tester).queue
  taken : deed.takesTester = true → s.busy .tester = none ∧ ∃ task,
    (s.app.worker .tester).queue = task :: (s'.app.worker .tester).queue ∧
      ∀ i outcome, task = .job (.resume i outcome true) →
        .arrival outcome true true ∈ s'.app.history i

section Waiting

variable {owners : List Side} {s s' : Scene} {deeds : List Deed} {i : Nat} {outcome : Outcome}

/-- A request is ended whose ending has arrived, unless its handler is being called. -/
theorem Accounted.ended (h : s.Accounted owners) (hquiet : ∀ busyWith, s.app.stage i ≠ .busy busyWith)
    (harrived : .arrival outcome true true ∈ s.app.history i) : s.app.stage i = .ended := by
  cases hstage : s.app.stage i with
  | ended => rfl
  | busy busyWith => exact absurd hstage (hquiet busyWith)
  | idle =>
    cases hfound : s.app.cells[i]? with
    | none =>
      rw [history, hfound] at harrived
      cases harrived
    | some c =>
      rw [stage, history_of_getElem? hfound] at hstage
      rw [history_of_getElem? hfound] at harrived
      have hcount := (h.sound.orderly i c hfound).countP_isLastCall c.history (List.prefix_refl _)
      rw [hstage] at hcount
      have hends : 0 < c.history.countP Visit.isEnd := List.countP_pos_iff.mpr ⟨_, harrived, rfl⟩
      rw [hcount.1] at hends
      cases hends

end Waiting

section Stops

variable {owners : List Side} {s s₁ s₂ s₃ s' : Scene} {meanwhile later : List Deed}

end Stops

section Courses

variable {config : Config} {name : Option String} {properties : String} {extension : Extension}
  {built : App}

/-- A new application lasts. -/
theorem lasting_ofApp (hbuilt : build config name properties extension = .ok built) :
    (ofApp built).Lasting [] := by
  have hordered := ordered_ofApp hbuilt
  obtain ⟨name, properties, rfl⟩ := eq_ofParts_of_build hbuilt
  exact ⟨hordered.accounted, hordered.inPhase.paced, nofun, fun _ _ => rfl⟩

/-- A tester that is called to start sends a ping and acknowledges the start. -/
def pinging : List Deed :=
  [.act (.call {}), .act .proceed, .act (.take .tester),
    .act (.operate (.sendCmd (.scripted .tester "ping" [] [] none) { name := "ping" } false)),
    .act (.operate (.acknowledge .start)), .act (.finish .tester (.ok ()))]

end Courses

end Scene
end Switchboard.App
